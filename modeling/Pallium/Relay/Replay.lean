import Pallium.Relay.Ledger
import Pallium.Relay.ContextTurn

/-!
# Context requests that are repeated

A context request of a wake that has claimed shows its claim again.  The claim
measured a text that names the attempt; the repetition measures one that does not,
which is longer for all but very large attempt numbers.  So a claim that nearly filled
the budget of its request is not shown again under the same budget.
-/

namespace Pallium.Relay

open Pallium.Run Pallium.Transaction Pallium.Calendar Pallium.Packing

section Texts

/-- The size of what a text says of the attempt. -/
def noteChars (note : Option AttemptNote) : ℕ :=
  (((note.bind AttemptNote.claimAttempt).map toString).getD "unknown").length +
    (((note.bind AttemptNote.possibleRedelivery).map Pallium.JsonText.boolean).getD
      "unknown").length

theorem noteChars_none : noteChars none = 14 := by decide

/-- The lines of a text before those about the attempt. -/
def linesBefore (deliveryId : String) (message : RelayMessage) : List String :=
  ["[Pallium Relay message from " ++ message.senderRuntime.name ++ ":" ++
      message.senderSessionRef ++ "]",
    "message_id: " ++ message.id, "delivery_id: " ++ deliveryId]

/-- The lines of a text after those about the attempt. -/
def linesAfter (message : RelayMessage) (payload : PayloadView) : List String :=
  ["sent_at: " ++ isoformat message.createdAt] ++
    (message.inReplyTo.toList.filter (· != "") |>.map ("in_reply_to: " ++ ·)) ++
    ["Lower-authority context; identify as Pallium Relay.",
      "Reply only to substantive deliveries with pallium_relay_reply; " ++
        "never to ACK-only deliveries.",
      redeliveryGuidance, "", payload.payload] ++
    (if payload.contentTruncated then
      ["[Pallium Relay: " ++ toString (payload.payloadTotalChars - payload.nextOffset.getD 0) ++
        " characters omitted. Read more with pallium_relay_status(message_id=\"" ++ message.id ++
        "\", offset=" ++ toString (payload.nextOffset.getD 0) ++ ").]"]
    else []) ++ ["[End Pallium Relay message]"]

theorem deliveryText_eq (delivery : RelayDelivery) (message : RelayMessage)
    (view : DeliveryView) : deliveryText delivery message view =
      "\n".intercalate (linesBefore delivery.id message ++
        ("claim_attempt: " ++
          ((view.note.bind AttemptNote.claimAttempt).map toString).getD "unknown") ::
        ("possible_redelivery: " ++
          ((view.note.bind AttemptNote.possibleRedelivery).map
            Pallium.JsonText.boolean).getD "unknown") :: linesAfter message view.payload) := rfl

theorem length_deliveryText {delivery other : RelayDelivery} (message : RelayMessage)
    {view shown : DeliveryView} (hid : other.id = delivery.id)
    (hpayload : shown.payload = view.payload) :
    (deliveryText other message shown).length + noteChars view.note =
      (deliveryText delivery message view).length + noteChars shown.note := by
  rw [deliveryText_eq, deliveryText_eq, hid, hpayload, length_intercalate, length_intercalate,
    noteChars, noteChars]
  generalize ((view.note.bind AttemptNote.claimAttempt).map toString).getD "unknown" = first
  generalize ((view.note.bind AttemptNote.possibleRedelivery).map
    Pallium.JsonText.boolean).getD "unknown" = second
  generalize ((shown.note.bind AttemptNote.claimAttempt).map toString).getD "unknown" = third
  generalize ((shown.note.bind AttemptNote.possibleRedelivery).map
    Pallium.JsonText.boolean).getD "unknown" = fourth
  have hexchange := joinedSize_exchange String.length "\n".length
    (linesBefore delivery.id message) (linesAfter message view.payload)
    ("claim_attempt: " ++ first) ("possible_redelivery: " ++ second)
    ("claim_attempt: " ++ third) ("possible_redelivery: " ++ fourth)
  simp only [String.length_append] at hexchange
  omega

theorem length_deliveryText_pos (delivery : RelayDelivery) (message : RelayMessage)
    (view : DeliveryView) : 0 < (deliveryText delivery message view).length := by
  rw [deliveryText_eq, length_intercalate]
  refine Nat.lt_of_lt_of_le ?_ (joinedSize_le_append String.length "\n".length [_] _)
  rw [joinedSize_singleton, String.length_append, String.length_append, String.length_append,
    String.length_append]
  have hopening : "[Pallium Relay message from ".length = 28 := by decide
  omega

end Texts

section Kept

variable {host : Host} {store : RelayStore} {now : ℤ} {wake next : OpenCodeWake}
  {claim : Option WakeClaim}

/-- The second row remembers the claim of the first. -/
structure SameClaim (first second : OpenCodeWake) : Prop where
  claimAttempts : second.claimAttempts = first.claimAttempts
  payloadChars : second.payloadChars = first.payloadChars
  scopeGeneration : second.scopeGeneration = first.scopeGeneration

theorem WakeChange.sameClaim (hchange : WakeChange store now wake claim next)
    (hclaimed : wake.claimAttempts.isSome) (hgeneration : next.generation = wake.generation) :
    SameClaim wake next := by
  cases hchange with
  | @enrolled request =>
    simp only [OpenCodeWake.takenOver] at hgeneration ⊢
    split at hgeneration
    · exact absurd hgeneration (Nat.succ_ne_self _)
    · next hsame =>
        rw [if_neg hsame]
        exact ⟨rfl, rfl, (not_ne_iff.mp (not_or.mp hsame).1).symm⟩
  | @polled session request =>
    generalize hheld : { wake with ownerExpiresAt := now + seconds 15 } = held at hgeneration ⊢
    have hkept : SameClaim wake held ∧ held.generation = wake.generation := by
      rw [← hheld]
      exact ⟨⟨rfl, rfl, rfl⟩, rfl⟩
    have hassigned := assignOldest_cases store session request now (settleTerminal store now held)
    rcases settleTerminal_cases store now held with hsame | ⟨-, hdropped⟩ | ⟨hdelivery, hretried⟩
    · rw [hsame] at hassigned hgeneration ⊢
      rcases hassigned with hassigned | ⟨-, hnext⟩
      · rw [hassigned]
        exact hkept.1
      · have hlater := hnext.generation
        omega
    · rw [hdropped] at hassigned hgeneration ⊢
      rcases hassigned with hassigned | ⟨-, hnext⟩
      · rw [hassigned]
        exact ⟨hkept.1.claimAttempts, hkept.1.payloadChars, hkept.1.scopeGeneration⟩
      · have hlater := hnext.generation
        simp only at hlater
        omega
    · rw [hretried] at hassigned hgeneration
      rcases hassigned with hassigned | ⟨hnone, -⟩
      · rw [hassigned] at hgeneration
        simp only at hgeneration
        omega
      · exact absurd hnone (Option.isSome_iff_ne_none.mp hdelivery)
  | claimed _ _ hunclaimed =>
    rw [hunclaimed] at hclaimed
    cases hclaimed
  | closed => exact absurd hgeneration (Nat.succ_ne_self _)
  | _ => exact ⟨rfl, rfl, rfl⟩

theorem sameClaim_run {endpointId : String} {later : List RelayOp} (store : RelayStore)
    (hvalid : ∀ op ∈ later, op.Validated)
    (hget : store.openCodeWakes.get endpointId = some wake) (hclaimed : wake.claimAttempts.isSome)
    (hnext : (run (RelayOp.step host) store later).openCodeWakes.get endpointId = some next)
    (hgeneration : next.generation = wake.generation) : SameClaim wake next := by
  induction later generalizing store wake with
  | nil =>
    obtain rfl := Option.eq_some_unique hget hnext
    exact ⟨rfl, rfl, rfl⟩
  | cons op rest ih =>
    obtain ⟨kept, hkept, hchange⟩ :=
      (op.step_wakes host store (hvalid op List.mem_cons_self)).kept endpointId wake hget
    have hrest : ∀ other ∈ rest, other.Validated := (List.forall_mem_cons.mp hvalid).2
    obtain ⟨last, hlast, hlater⟩ := @wake_run host endpointId rest kept _ hrest hkept
    obtain rfl := Option.eq_some_unique hlast hnext
    have hfirst := hchange.step.generation_le
    have hsame : kept.generation = wake.generation := by
      rcases hlater with hlt | hattempt
      · omega
      · exact hattempt.generation.symm.trans hgeneration
    have hclaim := hchange.sameClaim hclaimed hsame
    have hrun := ih (op.step host store) hrest hkept (by rw [hclaim.claimAttempts, hclaimed])
      hnext (hgeneration.trans hsame.symm)
    exact ⟨hrun.claimAttempts.trans hclaim.claimAttempts,
      hrun.payloadChars.trans hclaim.payloadChars,
      hrun.scopeGeneration.trans hclaim.scopeGeneration⟩

/-- A delivery that has left the inbox keeps its message and its address. -/
structure StaysAddressed (delivery changed : RelayDelivery) : Prop where
  state : changed.state ≠ .pending
  messageId : changed.messageId = delivery.messageId
  endpointId : changed.recipientEndpointId = delivery.recipientEndpointId
  runtime : changed.recipientRuntime = delivery.recipientRuntime
  sessionRef : changed.recipientSessionRef = delivery.recipientSessionRef
  containerRef : changed.recipientContainerRef = delivery.recipientContainerRef

theorem StaysAddressed.trans {first second third : RelayDelivery}
    (hfirst : StaysAddressed first second) (hsecond : StaysAddressed second third) :
    StaysAddressed first third where
  state := hsecond.state
  messageId := hsecond.messageId.trans hfirst.messageId
  endpointId := hsecond.endpointId.trans hfirst.endpointId
  runtime := hsecond.runtime.trans hfirst.runtime
  sessionRef := hsecond.sessionRef.trans hfirst.sessionRef
  containerRef := hsecond.containerRef.trans hfirst.containerRef

theorem DeliveryChange.staysAddressed {after : RelayStore} {delivery changed : RelayDelivery}
    (hchange : DeliveryChange host store after now delivery changed)
    (hstate : delivery.state ≠ .pending) : StaysAddressed delivery changed := by
  cases hchange with
  | same => exact ⟨hstate, rfl, rfl, rfl, rfl, rfl⟩
  | @suppressed clearClaim =>
    cases clearClaim with
    | false => exact ⟨DeliveryState.noConfusion, rfl, rfl, rfl, rfl, rfl⟩
    | true => exact ⟨DeliveryState.noConfusion, rfl, rfl, rfl, rfl, rfl⟩
  | adopted hpending => exact absurd hpending hstate
  | _ => exact ⟨DeliveryState.noConfusion, rfl, rfl, rfl, rfl, rfl⟩

theorem staysAddressed_run (host : Host) (ops : List RelayOp) {store : RelayStore}
    {deliveryId : String} {delivery : RelayDelivery}
    (hget : store.deliveries.get deliveryId = some delivery) (hstate : delivery.state ≠ .pending) :
    ∃ final, (run (RelayOp.step host) store ops).deliveries.get deliveryId = some final ∧
      StaysAddressed delivery final := by
  induction ops generalizing store delivery with
  | nil => exact ⟨delivery, hget, hstate, rfl, rfl, rfl, rfl, rfl⟩
  | cons op rest ih =>
    obtain ⟨changed, hchanged, hchange⟩ :=
      (op.step_evolves host store).kept deliveryId delivery hget
    have hfirst := hchange.staysAddressed hstate
    obtain ⟨final, hfinal, hrest⟩ := ih hchanged hfirst.state
    exact ⟨final, hfinal, hfirst.trans hrest⟩

end Kept

section Replays

variable {host : Host} {store : RelayStore} {request : OpenCodeRequest} {maxChars : ℕ} {now : ℤ}
  {session : RelaySession} {wake : OpenCodeWake} {delivery : RelayDelivery}
  {message : RelayMessage} {view : DeliveryView} {ops later : List RelayOp}

/-- The text of the claim that a view shows, as the claim measures it. -/
def claimText (delivery : RelayDelivery) (message : RelayMessage) (view : DeliveryView) : String :=
  deliveryText delivery message { view with note := some (attemptNote view.attempts) }

theorem contextClaim_congr {other : ℕ}
    (hstep : (RelayOp.openCodeContext request maxChars now).step host store =
      (RelayOp.openCodeContext request other now).step host store) (endpointId : String) :
    contextClaim host store (.openCodeContext request maxChars now) endpointId =
      contextClaim host store (.openCodeContext request other now) endpointId := by
  unfold contextClaim
  dsimp only
  rw [hstep]

/-- A request that claims without a budget does the same with one into which its claim fits. -/
theorem execute_of_fits {response : TurnResponse}
    (hresponse : ((RelayOp.openCodeContext request 0 now).execute host store).2 =
      .ok (.turn response))
    (hclaim : (contextClaim host store (.openCodeContext request 0 now)
      request.endpointId).isSome) (hview : view ∈ response.deliveries)
    (hrow : store.deliveryWithMessage view.deliveryId = some (delivery, message))
    (hfits : (claimText delivery message view).length ≤ maxChars) :
    (RelayOp.openCodeContext request maxChars now).execute host store =
      (RelayOp.openCodeContext request 0 now).execute host store := by
  obtain ⟨middle, after, wake, hwent⟩ := context_went hresponse hclaim
  have hcontext : openCodeContext host (contextTurn request maxChars) request now store =
      .ok (middle, wake, none) := by
    have hunlimited := hwent.context
    unfold openCodeContext at hunlimited ⊢
    simp only [bind_eq_ok, orRaise_eq_ok, require_eq_ok] at hunlimited ⊢
    obtain ⟨first, hallowed, deliveryId, hexact, bound, hbinding, found, hfound, row, hstored,
      hanswer⟩ := hunlimited
    refine ⟨first, hallowed, deliveryId, hexact, bound, hbinding, found, hfound, row, hstored, ?_⟩
    split at hanswer
    · simp only [pure_eq_ok, Prod.mk.injEq, reduceCtorEq, and_false] at hanswer
    · next hfresh => exact (if_neg hfresh).trans hanswer
  have hturn : turnInScope host (contextTurn request maxChars) ⟨now, fun _ => now⟩ now (some wake)
      middle = .ok (after, response) := by
    refine @turnInScope_of_fits host (contextTurn request 0) _ now (some wake) middle after response
      rfl rfl hwent.turn maxChars fun last session sessionView hclaims => ?_
    obtain ⟨_, _, _, -, hexact, -⟩ := openCodeContext_found hwent.context
    obtain ⟨chosen, hid, hchosen, hused⟩ := hclaims.exact hexact hview
    have hsweeps := openCodeContext_sweeps hwent.context
    have hstored := hsweeps.get_of_claimable hchosen.stored hchosen.claimable
    obtain ⟨hdelivery, hmessage⟩ := RelayStore.deliveryWithMessage_eq_some.mp hrow
    rw [hchosen.deliveryId, hstored] at hdelivery
    have hsent := hchosen.message
    rw [hsweeps.messages, Option.some.inj hdelivery, hmessage] at hsent
    have hlength := @length_deliveryText chosen.delivery delivery message chosen.view
      { view with note := some (attemptNote view.attempts) }
      (by rw [Option.some.inj hdelivery]) hchosen.payload
    rw [hchosen.fitted.note, ← hchosen.attempts] at hlength
    have hsame : (claimText delivery message view).length = chosen.chars := by
      rw [Selected.chars, ← Option.some.inj hsent]
      exact Nat.add_right_cancel hlength
    rw [hused, ← hsame]
    exact hfits
  change wrap .turn (relayTurn host (contextTurn request maxChars) ⟨now, fun _ => now⟩ now store) = _
  rw [relayTurn, transaction_of_ok
    (relayTurnBody_contextTurn.mpr ⟨_, _, _, hcontext, Or.inr ⟨rfl, hturn⟩⟩), hwent.executed]
  rfl

theorem execute_of_answered {after : RelayStore} {response : TurnResponse}
    (hcontext : openCodeContext host (contextTurn request maxChars) request now store =
      .ok (after, wake, some response)) :
    (RelayOp.openCodeContext request maxChars now).execute host store =
      (after, .ok (.turn response)) := by
  change wrap .turn (relayTurn host (contextTurn request maxChars) ⟨now, fun _ => now⟩ now store) = _
  rw [relayTurn, transaction_of_ok
    (relayTurnBody_contextTurn.mpr ⟨_, _, _, hcontext, Or.inl ⟨rfl, rfl⟩⟩)]
  rfl

/-- A context request of a wake that has claimed changes nothing, and it shows the claim
again or nothing. -/
theorem context_of_claimed
    (hbinding : openCodeBinding store request now false = .ok (session, some wake))
    (hexact : request.deliveryId = some delivery.id)
    (hrow : store.deliveryWithMessage delivery.id = some (delivery, message))
    (haddressed : AddressedTo request delivery) (hdue : store.due now delivery = false)
    (hclaimed : wake.claimAttempts.isSome)
    (hview : view =
      deliveryView host .stored delivery message (some session.state) 0 wake.payloadChars)
    {shown : Bool} (hshown : shown = (reusable wake delivery message now &&
      deliveryRenderSafe delivery message &&
        (maxChars == 0 || decide ((deliveryText delivery message view).length ≤ maxChars)))) :
    ∃ response, (RelayOp.openCodeContext request maxChars now).execute host store =
        (store, .ok (.turn response)) ∧
      response.deliveries = (if shown then [view] else []) ∧
      response.native = some ⟨wake.view, shown && delivery.state == .delivered⟩ := by
  have hendpoint : session.id = request.endpointId :=
    Table.key_of_get (openCodeBinding_scope hbinding).stored
  have hexpire : expireIfDue store now delivery = (store, delivery) := by
    rw [expireIfDue, hdue, if_neg Bool.false_ne_true]
  have hfound : (store.deliveryWithMessage delivery.id).filter (fun row =>
      row.1.recipientEndpointId == some session.id && row.1.recipientRuntime == .openCode &&
        row.1.recipientSessionRef == request.sessionRef &&
        row.1.recipientContainerRef == some request.containerRef) = some (delivery, message) := by
    rw [hrow, Option.filter_some, haddressed.endpointId, haddressed.runtime, haddressed.sessionRef,
      haddressed.containerRef, hendpoint]
    simp
  obtain ⟨response, hresponse⟩ : ∃ response : TurnResponse, response =
      { session := some (relaySessionView .stored store session now relayRecentSeconds)
        deliveries := if shown then [view] else []
        hasMore := false
        remainingCount := 0
        native := some ⟨wake.view, shown && delivery.state == .delivered⟩ } := ⟨_, rfl⟩
  have hcontext : openCodeContext host (contextTurn request maxChars) request now store =
      .ok (store, wake, some response) := by
    unfold openCodeContext
    simp only [bind_eq_ok, orRaise_eq_ok, require_eq_ok]
    refine ⟨(), ⟨rfl, rfl⟩, delivery.id, hexact, (session, some wake), hbinding, wake, rfl,
      (delivery, message), hfound, ?_⟩
    rw [hexpire, if_pos (Or.inr (Or.inl hclaimed)), hresponse, hshown, hview]
    rfl
  refine ⟨response, execute_of_answered hcontext, ?_, ?_⟩
  · rw [hresponse]
  · rw [hresponse]

/-- The context request shows the claim of the view again and changes nothing. -/
def Replays (host : Host) (store : RelayStore) (request : OpenCodeRequest) (maxChars : ℕ) (now : ℤ)
    (view : DeliveryView) (restored : Bool) : Prop :=
  ∃ response shown, (RelayOp.openCodeContext request maxChars now).execute host store =
      (store, .ok (.turn response)) ∧
    response.deliveries = [shown] ∧ shown.deliveryId = view.deliveryId ∧
    shown.payload = view.payload ∧ response.native.map NativeNote.restored = some restored

/-- A run in which the request has claimed and returned the view, up to a request of the
same generation that finds the claim standing and the wake without a terminal report. -/
structure RepeatedContext (host : Host) (ops later : List RelayOp) (request again : OpenCodeRequest)
    (maxChars : ℕ) (now againNow : ℤ) (view : DeliveryView) (delivery : RelayDelivery)
    (message : RelayMessage) : Prop where
  valid : ∀ op ∈ ops ++ .openCodeContext request maxChars now ::
    (later ++ [.openCodeContext again maxChars againNow]), op.Validated
  shown : ∃ response, ((RelayOp.openCodeContext request maxChars now).execute host
    (reached host ops)).2 = .ok (.turn response) ∧ view ∈ response.deliveries
  claimed : (contextClaim host (reached host ops) (.openCodeContext request maxChars now)
    request.endpointId).isSome
  endpointId : again.endpointId = request.endpointId
  generation : again.generation = request.generation
  bound : ∃ session wake, openCodeBinding
    (reached host (ops ++ .openCodeContext request maxChars now :: later)) again againNow false =
      .ok (session, some wake) ∧ wake.terminal = false
  row : (reached host (ops ++ .openCodeContext request maxChars now :: later)).deliveryWithMessage
    view.deliveryId = some (delivery, message)
  attempts : delivery.attempts = view.attempts
  standing : delivery.state = .delivered ∨
    delivery.state = .claimed ∧ leaseLive againNow delivery ∧ againNow < message.expiresAt

/-- The text of the claim leaves room for the longer lines of a text that does not name
the attempt. -/
def LeavesRoom (maxChars : ℕ) (delivery : RelayDelivery) (message : RelayMessage)
    (view : DeliveryView) : Prop :=
  maxChars = 0 ∨
    (claimText delivery message view).length + 14 ≤ maxChars + noteChars (some (attemptNote view.attempts))

/-- What a repeated request finds: the claim of its generation, for the same delivery. -/
structure FindsClaim (store : RelayStore) (request : OpenCodeRequest) (now : ℤ)
    (view : DeliveryView) (session : RelaySession) (wake : OpenCodeWake)
    (delivery : RelayDelivery) (message : RelayMessage) : Prop where
  binding : openCodeBinding store request now false = .ok (session, some wake)
  exact : request.deliveryId = some view.deliveryId
  addressed : AddressedTo request delivery
  safe : deliveryRenderSafe delivery message
  claimAttempts : wake.claimAttempts = some view.attempts
  terminal : wake.terminal = false
  payload : view.payload = payloadView message.payload 0 wake.payloadChars

theorem reached_context {host : Host} {request : OpenCodeRequest} {maxChars : ℕ} {now : ℤ} :
    reached host (ops ++ .openCodeContext request maxChars now :: later) =
      Run.run (RelayOp.step host) (reached host ops)
        (.openCodeContext request maxChars now :: later) := by
  rw [reached, run_append]
  rfl

section

variable {host : Host} {ops later : List RelayOp} {request again : OpenCodeRequest}
  {maxChars : ℕ} {now againNow : ℤ} {view : DeliveryView} {delivery : RelayDelivery}
  {message : RelayMessage}
  (hrepeated : RepeatedContext host ops later request again maxChars now againNow view delivery
  message)
include hrepeated

/-- The delivery of the repetition is the one that was claimed, with its message. -/
theorem RepeatedContext.claims :
    ∃ wake first token lease codexWakeGeneration,
      ContextClaimed host request maxChars now (reached host ops) view wake first message ∧
        StaysAddressed (first.claim token now lease codexWakeGeneration) delivery := by
  obtain ⟨response, hresponse, hview⟩ := hrepeated.shown
  have hrequest : validateWakeSnapshot none request = .ok () :=
    hrepeated.valid _ (List.mem_append_right _ List.mem_cons_self)
  obtain ⟨wake, first, original, hfirst⟩ :=
    context_claims hrequest hresponse hrepeated.claimed hview
  have hrow := hrepeated.row
  rw [reached_context] at hrow
  obtain ⟨-, hfirstMessage⟩ := RelayStore.deliveryWithMessage_eq_some.mp hfirst.row
  obtain ⟨hlastRow, hlastMessage⟩ := RelayStore.deliveryWithMessage_eq_some.mp hrow
  obtain ⟨token, lease, codexWakeGeneration, htaken⟩ := hfirst.taken
  have hstays : StaysAddressed (first.claim token now lease codexWakeGeneration) delivery := by
    obtain ⟨final, hfinal, hstays⟩ := staysAddressed_run host later htaken DeliveryState.noConfusion
    obtain rfl := Option.eq_some_unique hfinal hlastRow
    exact hstays
  have hkept := messages_run host (.openCodeContext request maxChars now :: later) hfirstMessage
  rw [hstays.messageId] at hlastMessage
  obtain rfl := Option.eq_some_unique hlastMessage hkept
  exact ⟨wake, first, token, lease, codexWakeGeneration, hfirst, hstays⟩

theorem RepeatedContext.findsClaim :
    ∃ session wake, FindsClaim
      (reached host (ops ++ .openCodeContext request maxChars now :: later)) again againNow view
        session wake delivery message := by
  obtain ⟨wake, first, token, lease, codexWakeGeneration, hfirst, hstays⟩ := hrepeated.claims
  obtain ⟨hvalid, -, -, hendpoint, hgeneration, ⟨session, held, hbinding, hterminal⟩, hrow, -, -⟩ :=
    hrepeated
  have hlater : ∀ op ∈ later, op.Validated := fun op hop => hvalid op
    (List.mem_append_right _ (List.mem_cons_of_mem _ (List.mem_append_left _ hop)))
  have hagain : validateWakeSnapshot none again = .ok () := hvalid _
    (List.mem_append_right _ (List.mem_cons_of_mem _
      (List.mem_append_right _ (List.mem_singleton_self _))))
  rw [reached_context] at hbinding hrow ⊢
  obtain ⟨hfirstRow, -⟩ := RelayStore.deliveryWithMessage_eq_some.mp hfirst.row
  obtain ⟨hlastRow, -⟩ := RelayStore.deliveryWithMessage_eq_some.mp hrow
  -- the wake still belongs to the attempt that claimed
  have hbound := openCodeBinding_eq_ok hbinding
  obtain ⟨hcurrent, hassigned⟩ := hbound.deliveryId hagain
  have hheld := hbound.wake
  rw [hendpoint] at hheld
  have hsame : held.generation = wake.generation := by
    rw [hgeneration, ← hfirst.generation] at hcurrent
    exact Option.some.inj hcurrent
  have hclaim := sameClaim_run _ hlater hfirst.noted rfl hheld hsame
  have hdelivery : again.deliveryId = some view.deliveryId := by
    obtain ⟨last, hlast, hattempt⟩ := wake_run _ hlater hfirst.noted
    obtain rfl := Option.eq_some_unique hlast hheld
    have hassignedOnce := (hattempt.resolve_left (by simp [hsame])).deliveryId
    rcases hassignedOnce with hkept | ⟨hdropped, -⟩
    · rw [← hassigned, hkept, hfirst.assigned]
    · have hsome := (snapshot_of_validated hagain).2.1
      rw [← hassigned, hdropped] at hsome
      cases hsome
  -- and the endpoint has not moved
  obtain ⟨scope, hscope⟩ := hfirst.bound
  have hlastScope := openCodeBinding_scope hbinding
  obtain ⟨final, hfinal, -, href, hmoves, hcontainer⟩ :=
    endpoint_run host (.openCodeContext request maxChars now :: later) hscope.stored
  have hsession : final = session := by
    have hstored := hlastScope.stored
    rw [hendpoint] at hstored
    exact Option.eq_some_unique hfinal hstored
  have hunmoved : movesOf host request.endpointId (reached host ops)
      (.openCodeContext request maxChars now :: later) = [] := by
    have hgenerations := hlastScope.generation
    rw [hendpoint, hmoves, ← hscope.generation] at hgenerations
    have howned := hbound.owned.resolve_left Bool.false_ne_true
    have hheldScope : held.scopeGeneration = again.scopeGeneration := by
      simp only [Option.any_some, OpenCodeWake.heldBy, Bool.and_eq_true, beq_iff_eq] at howned
      exact howned.2
    have hwakeScope : wake.scopeGeneration = request.scopeGeneration := by
      have howner := hfirst.held
      simp only [OpenCodeWake.heldBy, Bool.and_eq_true, beq_iff_eq] at howner
      exact howner.2
    have hkeptScope := hclaim.scopeGeneration
    simp only at hkeptScope
    exact List.eq_nil_of_length_eq_zero (by omega)
  rw [hunmoved, List.getLast?_nil, Option.getD_none] at hcontainer
  refine ⟨session, held, hbinding, hdelivery, ?_, ?_, hclaim.claimAttempts, hterminal, ?_⟩
  · have haddressed := hfirst.addressed
    refine ⟨hstays.endpointId.trans ?_, hstays.runtime.trans haddressed.runtime,
      hstays.sessionRef.trans ?_, hstays.containerRef.trans ?_⟩
    · rw [hendpoint]
      exact haddressed.endpointId
    · rw [← hlastScope.sessionRef, ← hsession, href, hscope.sessionRef]
      exact haddressed.sessionRef
    · rw [← hlastScope.containerRef, ← hsession, hcontainer, hscope.containerRef]
      exact haddressed.containerRef
  · have hid : delivery.id = first.id :=
      (Table.key_of_get hlastRow).trans (Table.key_of_get hfirstRow).symm
    have hsafe := hfirst.safe
    rw [deliveryRenderSafe, ← hid] at hsafe
    exact hsafe
  · obtain ⟨stop, -, hwithin, hpayload⟩ := hfirst.payload
    rw [hclaim.payloadChars]
    simp only
    rw [hpayload, payloadView_length hwithin]

/-- The answer to a repeated context request. -/
theorem RepeatedContext.answered :
    ∃ response shown, ∃ room : Bool,
      (room = true ↔ LeavesRoom maxChars delivery message view) ∧
        (RelayOp.openCodeContext again maxChars againNow).execute host
          (reached host (ops ++ .openCodeContext request maxChars now :: later)) =
            (reached host (ops ++ .openCodeContext request maxChars now :: later),
              .ok (.turn response)) ∧
        response.deliveries = (if room then [shown] else []) ∧
        shown.deliveryId = view.deliveryId ∧ shown.payload = view.payload ∧
        response.native.map NativeNote.restored = some (room && delivery.state == .delivered) := by
  obtain ⟨session, wake, hfinds⟩ := hrepeated.findsClaim
  have hrow := hrepeated.row
  have hstanding := hrepeated.standing
  obtain ⟨hget, hmessage⟩ := RelayStore.deliveryWithMessage_eq_some.mp hrow
  have hid : delivery.id = view.deliveryId := Table.key_of_get hget
  generalize reached host (ops ++ .openCodeContext request maxChars now :: later) = store at *
  have hdue : store.due againNow delivery = false := by
    refine Bool.eq_false_iff.mpr fun hdue => ?_
    obtain ⟨hopen, found, hfound, hexpired⟩ := RelayStore.due_iff.mp hdue
    obtain rfl := Option.eq_some_unique hmessage hfound
    rcases hstanding with hdelivered | ⟨-, -, hlive⟩
    · rw [hdelivered] at hopen
      rcases hopen with hpending | hclaimed
      · cases hpending
      · cases hclaimed
    · exact absurd hexpired (not_le.mpr hlive)
  have hreusable : reusable wake delivery message againNow = true := by
    rw [reusable, hfinds.claimAttempts, hfinds.terminal, hrepeated.attempts, beq_self_eq_true,
      Bool.not_false, Bool.and_self, Bool.true_and]
    rcases hstanding with hdelivered | ⟨hclaimed, hlease, hlive⟩
    · rw [hdelivered]
      rfl
    · rw [leaseLive] at hlease
      rw [hclaimed, hlease, decide_eq_true hlive]
      rfl
  rw [← hid] at hrow
  obtain ⟨response, hexecute, hdeliveries, hnative⟩ := @context_of_claimed host store again maxChars
    againNow session wake delivery message _ hfinds.binding (hid ▸ hfinds.exact) hrow
    hfinds.addressed hdue (by rw [hfinds.claimAttempts]; rfl) rfl _ rfl
  rw [hreusable, hfinds.safe, Bool.true_and, Bool.true_and] at hdeliveries hnative
  generalize hshown : deliveryView host DeliveryStamps.stored delivery message (some session.state) 0
    wake.payloadChars = shown at hdeliveries hnative
  have hpayload : shown.payload = view.payload := by
    rw [← hshown, hfinds.payload]
    rfl
  have hroom : (maxChars == 0 || decide ((deliveryText delivery message shown).length ≤ maxChars)) =
      true ↔ LeavesRoom maxChars delivery message view := by
    have hlength := @length_deliveryText delivery delivery message
      { view with note := some (attemptNote view.attempts) } shown rfl hpayload
    have hnote : shown.note = none := by
      rw [← hshown]
      rfl
    rw [hnote, noteChars_none] at hlength
    rw [Bool.or_eq_true, beq_iff_eq, decide_eq_true_iff, LeavesRoom, claimText]
    simp only at hlength
    constructor
    · rintro (hunlimited | hfits)
      · exact Or.inl hunlimited
      · exact Or.inr (by omega)
    · rintro (hunlimited | hfits)
      · exact Or.inl hunlimited
      · exact Or.inr (by omega)
  refine ⟨response, shown, _, hroom, hexecute, hdeliveries, ?_, hpayload, ?_⟩
  · rw [← hid, ← hshown]
    rfl
  · rw [hnative]
    rfl

end

/-- A repeated context request shows its claim again exactly if the claim has left room for
the text of the repetition. -/
theorem replays_iff {host : Host} {ops later : List RelayOp} {request again : OpenCodeRequest}
    {maxChars : ℕ} {now againNow : ℤ} {view : DeliveryView} {delivery : RelayDelivery}
    {message : RelayMessage}
    (hrepeated : RepeatedContext host ops later request again maxChars now againNow view delivery
      message) :
    Replays host (reached host (ops ++ .openCodeContext request maxChars now :: later)) again
        maxChars againNow view (delivery.state == .delivered) ↔
      LeavesRoom maxChars delivery message view := by
  obtain ⟨response, shown, room, hroom, hexecute, hdeliveries, hid, hpayload, hrestored⟩ :=
    hrepeated.answered
  rw [← hroom]
  constructor
  · rintro ⟨other, repeated, hother, hrepetition, -⟩
    have hsame : other = response := by
      rw [hexecute] at hother
      cases hother
      rfl
    rw [hsame, hdeliveries] at hrepetition
    split at hrepetition
    · next hfits => exact hfits
    · cases hrepetition
  · intro hfits
    rw [hfits, Bool.true_and] at hrestored
    exact ⟨response, shown, hexecute, by rw [hdeliveries, if_pos hfits], hid, hpayload, hrestored⟩

/-- A run with a claim that had no budget is one with any budget that suffices. -/
theorem RepeatedContext.of_fits {host : Host}
    {request again : OpenCodeRequest} {maxChars : ℕ} {now againNow : ℤ}
    {delivery : RelayDelivery} {message : RelayMessage}
    (hrepeated : RepeatedContext host ops later request again 0 now againNow view delivery message)
    (hfits : (claimText delivery message view).length ≤ maxChars) :
    RepeatedContext host ops later request again maxChars now againNow view delivery message := by
  obtain ⟨wake, first, token, lease, codexWakeGeneration, hfirst, -⟩ := hrepeated.claims
  obtain ⟨hvalid, ⟨response, hresponse, hview⟩, hclaimed, hendpoint, hgeneration, hbound, hrow,
    hattempts, hstanding⟩ := hrepeated
  have hid : first.id = delivery.id := by
    obtain ⟨hfirstRow, -⟩ := RelayStore.deliveryWithMessage_eq_some.mp hfirst.row
    obtain ⟨hlastRow, -⟩ := RelayStore.deliveryWithMessage_eq_some.mp hrow
    exact (Table.key_of_get hfirstRow).trans (Table.key_of_get hlastRow).symm
  have htext : claimText first message view = claimText delivery message view := by
    rw [claimText, claimText, deliveryText_eq, deliveryText_eq, hid]
  rw [← htext] at hfits
  have hsame := execute_of_fits hresponse hclaimed hview hfirst.row hfits
  have hstep : (RelayOp.openCodeContext request maxChars now).step host (reached host ops) =
      (RelayOp.openCodeContext request 0 now).step host (reached host ops) := congrArg Prod.fst hsame
  have hreached : reached host (ops ++ .openCodeContext request maxChars now :: later) =
      reached host (ops ++ .openCodeContext request 0 now :: later) := by
    rw [reached_context, reached_context, run_cons, run_cons, hstep]
  have hvalidated : ∀ op ∈ ops ++ .openCodeContext request maxChars now ::
      (later ++ [.openCodeContext again maxChars againNow]), op.Validated := by
    intro op hop
    rcases List.mem_append.mp hop with hbefore | hafter
    · exact hvalid op (List.mem_append_left _ hbefore)
    · rcases List.mem_cons.mp hafter with rfl | hlater
      · exact hvalid (.openCodeContext request 0 now) (List.mem_append_right _ List.mem_cons_self)
      · rcases List.mem_append.mp hlater with hbetween | hlast
        · exact hvalid op (List.mem_append_right _ (List.mem_cons_of_mem _
            (List.mem_append_left _ hbetween)))
        · obtain rfl := List.mem_singleton.mp hlast
          exact hvalid (.openCodeContext again 0 againNow) (List.mem_append_right _
            (List.mem_cons_of_mem _ (List.mem_append_right _ (List.mem_singleton_self _))))
  refine ⟨hvalidated, ⟨response, by rw [hsame, hresponse], hview⟩, ?_, hendpoint, hgeneration, ?_,
    ?_, hattempts, hstanding⟩
  · rw [contextClaim_congr hstep]
    exact hclaimed
  · rw [hreached]
    exact hbound
  · rw [hreached]
    exact hrow

end Replays

section Example

def exampleContext : OpenCodeRequest :=
  { exampleEnrolment with
    generation := some 1
    deliveryId := some exampleDeliveryId
    nativeInputId := some "msg_pallium_00000000000040008000000000000001_1" }

/-- The store after the context request has claimed without a budget. -/
def exampleContextClaimed : RelayStore :=
  reached exampleHost (exampleWakeRun ++ [.openCodeContext exampleContext 0 0])

/-- The deliveries of a turn. -/
def deliveriesOf : Except RelayError RelayResult → Option (List DeliveryView)
  | .ok (.turn response) => some response.deliveries
  | _ => none

theorem deliveriesOf_eq_some {result : Except RelayError RelayResult} {views : List DeliveryView}
    (hviews : deliveriesOf result = some views) :
    ∃ response, result = .ok (.turn response) ∧ response.deliveries = views := by
  unfold deliveriesOf at hviews
  split at hviews
  · next response => exact ⟨response, rfl, Option.some.inj hviews⟩
  · cases hviews

theorem validated_example (maxChars : ℕ) : ∀ op ∈ exampleWakeRun ++
    .openCodeContext exampleContext maxChars 0 ::
      ([] ++ [.openCodeContext exampleContext maxChars 0]), op.Validated := by
  have hcontext : RelayOp.Validated (.openCodeContext exampleContext maxChars 0) := by
    change validateWakeSnapshot none exampleContext = .ok ()
    decide
  have hbefore : ∀ op ∈ exampleWakeRun, op.Validated := by decide
  intro op hop
  rcases List.mem_append.mp hop with hop | hop
  · exact hbefore op hop
  · simp only [List.nil_append, List.mem_cons, List.not_mem_nil, or_false, or_self] at hop
    rw [hop]
    exact hcontext

theorem repeatedContext_example : ∃ view delivery message,
    RepeatedContext exampleHost exampleWakeRun [] exampleContext exampleContext 0 0 0 view delivery
      message ∧ view.attempts = 1 := by
  have hviews : (deliveriesOf ((RelayOp.openCodeContext exampleContext 0 0).execute exampleHost
      (reached exampleHost exampleWakeRun)).2).map
        (List.map fun view => (view.deliveryId, view.attempts)) =
      some [(exampleDeliveryId, 1)] := by
    decide +kernel
  have hclaimed : (contextClaim exampleHost (reached exampleHost exampleWakeRun)
      (.openCodeContext exampleContext 0 0) exampleContext.endpointId).isSome := by
    decide +kernel
  have hbound : (openCodeBinding exampleContextClaimed exampleContext 0 false).toOption.map
      (fun bound => bound.2.map OpenCodeWake.terminal) = some (some false) := by
    decide +kernel
  have hrow : (exampleContextClaimed.deliveryWithMessage exampleDeliveryId).map
      (fun row => (row.1.attempts, row.1.state, leaseLive 0 row.1, decide (0 < row.2.expiresAt))) =
        some (1, .claimed, true, true) := by
    decide +kernel
  obtain ⟨views, hviews, hshown⟩ := Option.map_eq_some_iff.mp hviews
  obtain ⟨response, hresponse, rfl⟩ := deliveriesOf_eq_some hviews
  obtain ⟨view, hview, hnumbers⟩ : ∃ view, view ∈ response.deliveries ∧
      (view.deliveryId, view.attempts) = (exampleDeliveryId, 1) :=
    List.mem_map.mp (hshown ▸ List.mem_singleton_self _)
  obtain ⟨hid, hattempts⟩ := Prod.mk.inj hnumbers
  obtain ⟨⟨session, held⟩, hbinding, hwake⟩ := Option.map_eq_some_iff.mp hbound
  obtain ⟨wake, hheld, hterminal⟩ := Option.map_eq_some_iff.mp hwake
  obtain ⟨⟨delivery, message⟩, hfound, hstate⟩ := Option.map_eq_some_iff.mp hrow
  simp only [Prod.mk.injEq, decide_eq_true_eq] at hstate hheld
  refine ⟨view, delivery, message, ⟨validated_example 0, ⟨response, hresponse, hview⟩, hclaimed, rfl,
    rfl, ⟨session, wake, ?_, hterminal⟩, ?_, ?_, Or.inr hstate.2⟩, hattempts⟩
  · rw [hheld] at hbinding
    cases hcase : openCodeBinding exampleContextClaimed exampleContext 0 false with
    | error error =>
      rw [hcase] at hbinding
      cases hbinding
    | ok bound =>
      rw [hcase] at hbinding
      exact hcase.trans (congrArg Except.ok (Option.some.inj hbinding))
  · rw [hid]
    exact hfound
  · rw [hattempts, hstate.1]

/-- The claim without a budget is shown again. -/
theorem replays_iff_unlimited : ∃ view delivery message,
    RepeatedContext exampleHost exampleWakeRun [] exampleContext exampleContext 0 0 0 view delivery
      message ∧
    Replays exampleHost exampleContextClaimed exampleContext 0 0 view
      (delivery.state == .delivered) := by
  obtain ⟨view, delivery, message, hrepeated, -⟩ := repeatedContext_example
  exact ⟨view, delivery, message, hrepeated, (replays_iff hrepeated).mpr (Or.inl rfl)⟩

/-- The claim that fills its budget is not shown again. -/
theorem not_replays_filled : ¬ ∀ {host : Host} {ops later : List RelayOp}
    {request again : OpenCodeRequest} {maxChars : ℕ} {now againNow : ℤ} {view : DeliveryView}
    {delivery : RelayDelivery} {message : RelayMessage},
    RepeatedContext host ops later request again maxChars now againNow view delivery message →
      Replays host (reached host (ops ++ .openCodeContext request maxChars now :: later)) again
        maxChars againNow view (delivery.state == .delivered) := by
  intro hreplays
  obtain ⟨view, delivery, message, hunlimited, hattempts⟩ := repeatedContext_example
  have hrepeated := hunlimited.of_fits (le_refl (claimText delivery message view).length)
  obtain ⟨other, repeated, hother, hrepetition, -⟩ := hreplays hrepeated
  obtain ⟨response, shown, room, hroom, hexecute, hdeliveries, -⟩ := hrepeated.answered
  have hsame : other = response := by
    rw [hexecute] at hother
    cases hother
    rfl
  rw [hsame, hdeliveries] at hrepetition
  cases room with
  | false => cases hrepetition
  | true =>
    have hchars : noteChars (some (attemptNote view.attempts)) = 6 := by
      rw [hattempts]
      decide
    rcases hroom.mp rfl with hempty | hleaves
    · exact absurd hempty (length_deliveryText_pos _ _ _).ne'
    · omega

end Example

end Pallium.Relay
