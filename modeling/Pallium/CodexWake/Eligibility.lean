import Pallium.CodexWake.Fences
import Pallium.Relay.Service

/-!
# Who may be woken

The reads that decide whether a session is woken for a delivery, next to the turn
that would claim it.  The list of wake candidates, the pending candidate of a
scope, the reservation state and the turn each ask the store in their own way; for
a delivery to an active Codex session they all agree that it is open.
-/

namespace Pallium.CodexWake

open Pallium.Relay Pallium.Text Pallium.Transaction

section Reads

def wakePending (current : ℤ) (includePending : Bool) (delivery : RelayDelivery) : Bool :=
  let expiredClaim := delivery.state == .claimed &&
    delivery.leaseExpiresAt.any fun lease => lease ≤ current
  if includePending then delivery.state == .pending || expiredClaim else expiredClaim

structure WakeCandidate where
  deliveryId : String
  recipientEndpointId : String
  recipientRuntime : Runtime
  recipientSessionRef : String
  containerRef : String
  deriving DecidableEq, Repr

/-- A delivery joined with its message and the session of its endpoint. -/
abbrev WakeRow := (RelayDelivery × RelayMessage) × RelaySession

def wakeOrder (left right : WakeRow) : Prop := deliveryOrder left.1 right.1

instance : DecidableRel wakeOrder := fun left right =>
  inferInstanceAs (Decidable (deliveryOrder left.1 right.1))

/-- The rows which the statement of `relay_wake_candidates` selects. -/
def wakeRows (store : RelayStore) (deliveryId : Option String) (current : ℤ)
    (includePending : Bool) : List WakeRow :=
  let rows := store.deliveries.rows.filterMap fun delivery =>
    (store.messages.get delivery.messageId).bind fun message =>
      (store.relaySessionByEndpoint delivery.recipientEndpointId).bind fun session =>
        if (delivery.recipientRuntime = .codex ∨ delivery.recipientRuntime = .claudeCode) ∧
            wakePending current includePending delivery ∧ current < message.expiresAt ∧
            session.state = .active ∧ deliveryId.all (· == delivery.id) then
          some ((delivery, message), session)
        else none
  rows.insertionSort wakeOrder

/-- The loop over the rows; `seen` are the endpoints that have a candidate. -/
def collectCandidates (includeCoalesced : Bool) (seen : List String) :
    List WakeRow → List WakeCandidate
  | [] => []
  | ((delivery, message), session) :: rest =>
    if !renderSafe message.payload then collectCandidates includeCoalesced seen rest
    else if !includeCoalesced && seen.contains session.id then
      collectCandidates includeCoalesced seen rest
    else
      ⟨delivery.id, session.id, session.runtime, session.sessionRef, session.containerRef⟩ ::
        collectCandidates includeCoalesced (session.id :: seen) rest

def relayWakeCandidates (store : RelayStore) (deliveryId : Option String) (current : ℤ)
    (includePending includeCoalesced : Bool) : List WakeCandidate :=
  collectCandidates includeCoalesced [] (wakeRows store deliveryId current includePending)

structure PendingCandidate where
  deliveryId : String
  state : DeliveryState
  recipientEndpointId : String
  deriving DecidableEq, Repr

/-- The rows which the statement of `relay_pending_candidate` selects. -/
def pendingRows (store : RelayStore) (session : RelaySession) (deliveryId : Option String)
    (current : ℤ) : List (RelayDelivery × RelayMessage) :=
  let rows := store.deliveries.rows.filterMap fun delivery =>
    (store.messages.get delivery.messageId).bind fun message =>
      let wanted : Bool := match deliveryId with
        | some exact => delivery.id == exact
        | none => decide (current < message.expiresAt) && wakePending current true delivery
      if delivery.recipientEndpointId = some session.id ∧ wanted then some (delivery, message)
      else none
  rows.insertionSort deliveryOrder

def relayPendingCandidate (store : RelayStore) (runtime : Runtime)
    (sessionRef containerRef : String) (deliveryId : Option String) (current : ℤ) :
    Option PendingCandidate :=
  (store.relaySession containerRef runtime sessionRef).bind fun session =>
    let candidate := (pendingRows store session deliveryId current).find? fun row =>
      deliveryId.isSome || renderSafe row.2.payload
    candidate.map fun (delivery, message) =>
      ⟨delivery.id, effectiveState delivery message current, session.id⟩

end Reads

section Agreement

/-- The delivery can be claimed while its message lives. -/
def Open (now : ℤ) (delivery : RelayDelivery) (message : RelayMessage) : Prop :=
  claimable now delivery ∧ now < message.expiresAt

variable {host : Host} {now : ℤ} {store : RelayStore} {deliveryId : String}
  {delivery : RelayDelivery} {message : RelayMessage} {session : RelaySession}

theorem effectiveState_eq_pending_iff :
    effectiveState delivery message now = .pending ↔ Open now delivery message := by
  have hexpired : message.expiresAt ≤ now ↔ ¬ now < message.expiresAt := not_lt.symm
  simp only [effectiveState, Open, claimable, hexpired]
  by_cases hlive : now < message.expiresAt
  · cases hstate : delivery.state with
    | claimed =>
      cases hlease : delivery.leaseExpiresAt with
      | none => simp [hlive]
      | some lease => by_cases hout : lease ≤ now <;> simp [hlive, hout]
    | _ => simp [hlive]
  · cases hstate : delivery.state <;> simp [hlive]

/-- The stored delivery, its message and the session it goes to, all of which can be shown. -/
structure Placed (store : RelayStore) (deliveryId : String) (delivery : RelayDelivery)
    (message : RelayMessage) (session : RelaySession) : Prop where
  stored : store.deliveries.get deliveryId = some delivery
  content : store.messages.get delivery.messageId = some message
  recipient : delivery.recipientEndpointId = some session.id
  registered : store.sessions.get session.id = some session
  active : session.state = .active
  codex : session.runtime = .codex
  runtime : delivery.recipientRuntime = .codex
  shown : deliveryRenderSafe delivery message

section

variable (hplaced : Placed store deliveryId delivery message session)
include hplaced

theorem Placed.id :
    delivery.id = deliveryId := Table.key_of_get hplaced.stored

theorem Placed.payload :
    renderSafe message.payload := by
  have hshown := hplaced.shown
  simp only [deliveryRenderSafe, Bool.and_eq_true] at hshown
  exact hshown.1.2.2

theorem Placed.endpoint :
    store.relaySessionByEndpoint delivery.recipientEndpointId = some session := by
  rw [hplaced.recipient]
  exact hplaced.registered

end

theorem mem_collectCandidates {rows : List WakeRow} (seen : List String) {id : String} :
    (∃ candidate ∈ collectCandidates true seen rows, candidate.deliveryId = id) ↔
      ∃ row ∈ rows, row.1.1.id = id ∧ renderSafe row.1.2.payload := by
  induction rows generalizing seen with
  | nil => simp [collectCandidates]
  | cons row rest ih =>
    obtain ⟨⟨found, text⟩, holder⟩ := row
    by_cases hsafe : renderSafe text.payload
    · simp [collectCandidates, hsafe, ih]
    · simp [collectCandidates, hsafe, ih]

variable (hplaced : Placed store deliveryId delivery message session)
include hplaced

theorem Placed.mem_wakeRows {row : WakeRow} (hid : row.1.1.id = deliveryId) :
    row ∈ wakeRows store none now true ↔
      row = ((delivery, message), session) ∧ Open now delivery message := by
  rw [wakeRows, List.mem_insertionSort, List.mem_filterMap]
  constructor
  · rintro ⟨other, hother, hrow⟩
    simp only [Option.bind_eq_some_iff] at hrow
    obtain ⟨text, htext, holder, hholder, hrow⟩ := hrow
    split at hrow
    · next hwanted =>
        cases hrow
        have hget : store.deliveries.get deliveryId = some other := by
          rw [← hid]
          exact Table.get_of_mem hother
        obtain rfl := Option.eq_some_unique hget hplaced.stored
        obtain rfl := Option.eq_some_unique htext hplaced.content
        obtain rfl := Option.eq_some_unique hholder hplaced.endpoint
        exact ⟨rfl, hwanted.2.1, hwanted.2.2.1⟩
    · cases hrow
  · rintro ⟨rfl, hclaimable, hlive⟩
    refine ⟨delivery, Table.mem_of_get hplaced.stored, ?_⟩
    rw [hplaced.content, Option.bind_some, hplaced.endpoint, Option.bind_some, if_pos]
    exact ⟨Or.inl hplaced.runtime, hclaimable, hlive, hplaced.active, rfl⟩

/-- `relay_wake_candidates` lists the delivery while it is open. -/
theorem Placed.listed_iff :
    (∃ candidate ∈ relayWakeCandidates store none now true true,
        candidate.deliveryId = deliveryId) ↔ Open now delivery message := by
  rw [relayWakeCandidates, mem_collectCandidates]
  constructor
  · rintro ⟨row, hrow, hid, -⟩
    exact ((hplaced.mem_wakeRows hid).mp hrow).2
  · intro hopen
    exact ⟨((delivery, message), session), (hplaced.mem_wakeRows hplaced.id).mpr ⟨rfl, hopen⟩,
      hplaced.id, hplaced.payload⟩

theorem Placed.reserved_iff :
    (∃ state, reservationState store deliveryId now = some state ∧ state.state = .pending ∧
        state.wakeTarget.isSome) ↔ Open now delivery message := by
  have hrow : store.deliveryWithMessage deliveryId = some (delivery, message) :=
    RelayStore.deliveryWithMessage_eq_some.mpr ⟨hplaced.stored, hplaced.content⟩
  have htarget : session.state = .active ∧ session.runtime = .codex ∧
      delivery.recipientRuntime = .codex ∧ renderSafe message.payload :=
    ⟨hplaced.active, hplaced.codex, hplaced.runtime, hplaced.payload⟩
  simp only [reservationState, hrow, Option.map_some, Option.some.injEq, exists_eq_left',
    hplaced.endpoint, Option.bind_some, if_pos htarget, Option.isSome_some, and_true]
  exact effectiveState_eq_pending_iff

/-- `relay_pending_candidate` reports the delivery as pending while it is open. -/
theorem Placed.pending_iff (hdistinct : ScopesDistinct store) :
    (relayPendingCandidate store session.runtime session.sessionRef session.containerRef
        (some deliveryId) now).map PendingCandidate.state = some .pending ↔
      Open now delivery message := by
  have hrows : ∀ row, row ∈ pendingRows store session (some deliveryId) now →
      row = (delivery, message) := by
    intro row hrow
    rw [pendingRows, List.mem_insertionSort, List.mem_filterMap] at hrow
    obtain ⟨other, hother, hrow⟩ := hrow
    obtain ⟨text, htext, hrow⟩ := Option.bind_eq_some_iff.mp hrow
    simp only at hrow
    split at hrow
    · next hwanted =>
        cases hrow
        have hid : other.id = deliveryId := by simpa using hwanted.2
        have hget : store.deliveries.get deliveryId = some other := by
          rw [← hid]
          exact Table.get_of_mem hother
        obtain rfl := Option.eq_some_unique hget hplaced.stored
        rw [Option.eq_some_unique htext hplaced.content]
    · cases hrow
  have hmem : (delivery, message) ∈ pendingRows store session (some deliveryId) now := by
    rw [pendingRows, List.mem_insertionSort, List.mem_filterMap]
    refine ⟨delivery, Table.mem_of_get hplaced.stored, ?_⟩
    rw [hplaced.content, Option.bind_some, if_pos]
    exact ⟨hplaced.recipient, by simp [hplaced.id]⟩
  rw [relayPendingCandidate, relaySession_eq_some hdistinct hplaced.registered, Option.bind_some]
  cases hsome : (pendingRows store session (some deliveryId) now).find? fun row =>
      (some deliveryId).isSome || renderSafe row.2.payload with
  | none => simpa using List.find?_eq_none.mp hsome _ hmem
  | some row =>
    rw [hrows row (List.mem_of_find?_eq_some hsome)]
    simp only [Option.map_some, Option.some.injEq]
    exact effectiveState_eq_pending_iff

end Agreement

section Turn

variable {host : Host} {now : ℤ} {store after : RelayStore} {deliveryId : String}
  {delivery : RelayDelivery} {message : RelayMessage} {session : RelaySession}
  {context : TurnContext} {request : TurnRequest} {clock : ClaimClock}

theorem nodup_eligibleFor (session : RelaySession) (now : ℤ) (store : RelayStore) :
    (eligibleFor session now store).Nodup := by
  rw [eligibleFor, openDeliveries, (List.perm_insertionSort _ _).nodup_iff]
  refine List.Nodup.filterMap (fun first second row hfirst hsecond => ?_)
    (List.Nodup.of_map _ store.deliveries.nodup)
  have hof : ∀ other, row ∈ (store.messages.get other.messageId).bind (fun message =>
      if (other.recipientEndpointId == some session.id) && claimable now other &&
          decide (now < message.expiresAt) then some (other, message) else none) →
      row.1 = other := by
    intro other hother
    obtain ⟨text, -, hrow⟩ := Option.bind_eq_some_iff.mp hother
    split at hrow
    · rw [← Option.some.inj hrow]
    · cases hrow
  exact (hof first hfirst).symm.trans (hof second hsecond)

/-- The one row with the exact id is offered while it is open. -/
theorem exact_eligible (hget : store.deliveries.get deliveryId = some delivery)
    (hmessage : store.messages.get delivery.messageId = some message)
    (hrecipient : delivery.recipientEndpointId = some session.id) :
    (Open now delivery message →
      (eligibleFor session now store).filter (fun row => row.1.id == deliveryId) =
        [(delivery, message)]) ∧
      (¬ Open now delivery message →
        (eligibleFor session now store).filter (fun row => row.1.id == deliveryId) = []) := by
  have hrows : ∀ row ∈ (eligibleFor session now store).filter (fun row => row.1.id == deliveryId),
      row = (delivery, message) ∧ Open now delivery message := by
    rintro ⟨found, text⟩ hrow
    obtain ⟨hmem, hid⟩ := List.mem_filter.mp hrow
    obtain ⟨hfound, htext, -, hclaimable, hlive⟩ := mem_openDeliveries hmem
    rw [beq_iff_eq.mp hid, hget] at hfound
    cases hfound
    obtain rfl := Option.eq_some_unique htext hmessage
    exact ⟨rfl, hclaimable, hlive⟩
  constructor
  · intro hopen
    have hmem : (delivery, message) ∈
        (eligibleFor session now store).filter (fun row => row.1.id == deliveryId) := by
      refine List.mem_filter.mpr ⟨mem_eligibleFor hget hmessage hrecipient hopen.1 hopen.2, ?_⟩
      rw [beq_iff_eq]
      exact Table.key_of_get hget
    have hnodup := (nodup_eligibleFor session now store).filter
      fun row => row.1.id == deliveryId
    generalize (eligibleFor session now store).filter
      (fun row => row.1.id == deliveryId) = rows at hrows hmem hnodup
    cases rows with
    | nil => cases hmem
    | cons head tail =>
      obtain ⟨rfl, -⟩ := hrows head List.mem_cons_self
      cases tail with
      | nil => rfl
      | cons next rest =>
        obtain ⟨rfl, -⟩ := hrows next (List.mem_cons_of_mem _ List.mem_cons_self)
        exact absurd List.mem_cons_self (List.nodup_cons.mp hnodup).1
  · intro hclosed
    exact List.eq_nil_iff_forall_not_mem.mpr fun row hrow => hclosed (hrows row hrow).2

theorem examine_unbounded (hchars : context.request.maxChars = 0)
    (hresponse : context.request.maxResponseChars = 0) (selection : Selection)
    (hsafe : deliveryRenderSafe delivery message) :
    ∃ chosen, chosen.delivery = delivery ∧
      (examine context selection (delivery, message)).selected =
        selection.selected ++ [chosen] := by
  simp only [examine, hsafe, if_true, project, hchars, hresponse, ne_eq, not_true_eq_false,
    false_and, if_false]
  exact ⟨_, rfl, rfl⟩

/-- The turn asks for the one delivery in the scope of its session, without budgets. -/
structure ExactTurn (request : TurnRequest) (session : RelaySession) (deliveryId : String) :
    Prop where
  runtime : request.runtime = session.runtime
  sessionRef : request.sessionRef = session.sessionRef
  containerRef : request.containerRef = session.containerRef
  exact : request.exactDeliveryId = some deliveryId
  chars : request.maxChars = 0
  messages : request.maxMessages = 0
  response : request.maxResponseChars = 0
  deadline : request.claimExpiresAtMs = none
  container : request.previousContainerRef = none
  endpoint : request.previousEndpointId = none
  generation : request.previousScopeGeneration = none

/-- What the selection of an exact turn consists of. -/
theorem ExactTurn.selected (hexact : ExactTurn context.request session deliveryId)
    (hget : store.deliveries.get deliveryId = some delivery)
    (hmessage : store.messages.get delivery.messageId = some message)
    (hrecipient : delivery.recipientEndpointId = some context.session.id)
    (hsafe : deliveryRenderSafe delivery message) :
    (Open context.current delivery message → ∃ chosen, chosen.delivery = delivery ∧
        (selectEligible context store).selected = [chosen]) ∧
      (¬ Open context.current delivery message →
        (selectEligible context store).selected = []) := by
  obtain ⟨hopened, hclosed⟩ :=
    @exact_eligible context.current store deliveryId delivery message context.session hget
      hmessage hrecipient
  have hfilter : (eligibleFor context.session context.current store).filter (fun row =>
      context.request.exactDeliveryId.all fun deliveryId => row.1.id == deliveryId) =
      (eligibleFor context.session context.current store).filter
        (fun row => row.1.id == deliveryId) := by
    rw [hexact.exact]
    rfl
  rw [selectEligible, hfilter]
  constructor
  · intro hopen
    obtain ⟨chosen, hchosen, hselected⟩ :=
      examine_unbounded hexact.chars hexact.response ⟨[], 0, store.drawn⟩ hsafe
    rw [hopened hopen]
    refine ⟨chosen, hchosen, ?_⟩
    simp only [selectDeliveries, hexact.messages, ne_eq, not_true_eq_false, false_and, if_false]
    exact hselected
  · intro hshut
    rw [hclosed hshut]
    rfl

/-- What the turn does for the delivery: it claims it under its next attempt and
returns it. -/
def Claims (outcome : RelayStore × Except RelayError RelayResult) (deliveryId : String)
    (delivery : RelayDelivery) : Prop :=
  ∃ response changed, outcome.2 = .ok (.turn response) ∧
    response.deliveries.map DeliveryView.deliveryId = [deliveryId] ∧
    outcome.1.deliveries.get deliveryId = some changed ∧ changed.state = .claimed ∧
    changed.attempts = delivery.attempts + 1

theorem swept_row (hget : store.deliveries.get deliveryId = some delivery)
    (hmessage : store.messages.get delivery.messageId = some message) :
    ∃ row, (store.sweepExpired now).deliveries.get deliveryId = some row ∧
      (row = delivery ∨ row = delivery.markExpired) ∧
      (Open now row message ↔ Open now delivery message) ∧
      (Open now delivery message → row = delivery) := by
  rw [RelayStore.get_sweepExpired, hget, Option.map_some]
  refine ⟨_, rfl, ?_⟩
  split
  · next hdue =>
      obtain ⟨-, found, hfound, hexpired⟩ := RelayStore.due_iff.mp hdue
      obtain rfl := Option.eq_some_unique hfound hmessage
      have hclosed : ¬ Open now delivery found := fun hopen => absurd hopen.2 (not_lt.mpr hexpired)
      have hshut : ¬ Open now delivery.markExpired found :=
        fun hopen => absurd hopen.2 (not_lt.mpr hexpired)
      exact ⟨Or.inr rfl, iff_of_false hshut hclosed, fun hopen => absurd hopen hclosed⟩
  · exact ⟨Or.inl rfl, Iff.rfl, fun _ => rfl⟩

theorem ExactTurn.claimEligible (hexact : ExactTurn request session deliveryId)
    {holder : RelaySession} (view : SessionView)
    (hget : store.deliveries.get deliveryId = some delivery)
    (hmessage : store.messages.get delivery.messageId = some message)
    (hrecipient : delivery.recipientEndpointId = some holder.id)
    (hsafe : deliveryRenderSafe delivery message) :
    ∃ after response, Relay.claimEligible host request clock now none holder view store =
        .ok (after, response) ∧
      (Open now delivery message →
        Claims (after, .ok (.turn response)) deliveryId delivery) ∧
      (¬ Open now delivery message → response.deliveries = []) := by
  have hclock : checkClaimExpiry request clock 3 = .ok () := by
    simp [checkClaimExpiry, hexact.deadline, require]
  obtain ⟨row, hrow, hkept, hopens, hsame⟩ := @swept_row now store deliveryId delivery message
    hget hmessage
  generalize hswept : store.sweepExpired now = swept at hrow
  have hrowMessage : swept.messages.get row.messageId = some message := by
    rw [← hswept]
    rcases hkept with rfl | rfl
    · exact hmessage
    · exact hmessage
  have hrowRecipient : row.recipientEndpointId = some holder.id := by
    rcases hkept with rfl | rfl
    · exact hrecipient
    · exact hrecipient
  have hrowSafe : deliveryRenderSafe row message := by
    rcases hkept with rfl | rfl
    · exact hsafe
    · exact hsafe
  generalize hcontext : turnContext host request now none holder view swept = context
  have hrequest : context.request = request := hcontext ▸ rfl
  have hcurrent : context.current = now := hcontext ▸ rfl
  have hholder : context.session = holder := hcontext ▸ rfl
  have hclaims : Relay.claimEligible host request clock now none holder view store =
      .ok (claimSelected context none (selectEligible context swept) swept,
        context.response ((selectEligible context swept).selected.map (claimedView context))) := by
    simp only [Relay.claimEligible, hswept, hcontext, hclock, hexact.response, ne_eq,
      not_true_eq_false, false_and, if_false]
    rfl
  have hselected := ExactTurn.selected (hrequest.symm ▸ hexact) hrow hrowMessage
    (hholder.symm ▸ hrowRecipient) hrowSafe
  rw [hcurrent, hopens] at hselected
  refine ⟨_, _, hclaims, fun hopen => ?_, fun hshut => ?_⟩
  · obtain ⟨chosen, hchosen, hone⟩ := hselected.1 hopen
    obtain rfl := hsame hopen
    have hid : chosen.delivery.id = deliveryId := hchosen ▸ Table.key_of_get hget
    refine ⟨_, claimIfSelected context (selectEligible context swept) row, rfl, ?_, ?_, ?_⟩
    · change ((selectEligible context swept).selected.map (claimedView context)).map
        DeliveryView.deliveryId = [deliveryId]
      rw [hone, ← hid]
      rfl
    · rw [get_claimSelected, hrow, Option.map_some]
    · have hfound : (selectEligible context swept).selected.find?
          (fun found => found.delivery.id == row.id) = some chosen := by
        rw [hone, List.find?_cons_of_pos]
        rw [hchosen, beq_self_eq_true]
      unfold claimIfSelected
      rw [hfound]
      exact ⟨rfl, rfl⟩
  · change (selectEligible context swept).selected.map (claimedView context) = []
    rw [hselected.2 hshut]
    rfl

theorem admitSession_of_active (request : TurnRequest) (number : ℕ)
    (hactive : session.state = .active) :
    ∃ middle holder view, admitSession host request now (some session) number store =
        .ok (middle, .admitted holder view) ∧ holder.id = session.id ∧
      middle.deliveries = store.deliveries ∧ middle.messages = store.messages := by
  cases hregister : request.registerSession with
  | true =>
    simp only [admitSession, hregister, if_true]
    exact ⟨_, _, _, rfl, rfl, rfl, rfl⟩
  | false =>
    simp only [admitSession, hregister, hactive, Bool.false_eq_true, if_false, if_true]
    exact ⟨_, _, _, rfl, rfl, rfl, rfl⟩

variable (hplaced : Placed store deliveryId delivery message session)
  (hdistinct : ScopesDistinct store) (hexact : ExactTurn request session deliveryId)
include hplaced hdistinct hexact

theorem Placed.turnInScope :
    ∃ after response, Relay.turnInScope host request clock now none store =
        .ok (after, response) ∧
      (Open now delivery message → Claims (after, .ok (.turn response)) deliveryId delivery) ∧
      (¬ Open now delivery message → response.deliveries = []) := by
  have hregistered : store.relaySession request.containerRef request.runtime request.sessionRef =
      some session := by
    rw [hexact.containerRef, hexact.runtime, hexact.sessionRef]
    exact relaySession_eq_some hdistinct hplaced.registered
  have hscope : resolveScope request store =
      .ok (store, some session, store.scopeGeneration session.id) := by
    simp only [resolveScope, hexact.container, hregistered]
    rfl
  obtain ⟨middle, holder, view, hadmitted, hid, hdeliveries, hmessages⟩ :=
    @admitSession_of_active host now store session request (store.scopeGeneration session.id)
      hplaced.active
  have hget : middle.deliveries.get deliveryId = some delivery := hdeliveries ▸ hplaced.stored
  have hmessage : middle.messages.get delivery.messageId = some message :=
    hmessages ▸ hplaced.content
  obtain ⟨after, response, hclaims, houtcome⟩ :=
    hexact.claimEligible view hget hmessage (hid ▸ hplaced.recipient) hplaced.shown
  refine ⟨after, response, ?_, houtcome⟩
  rw [Relay.turnInScope, hscope]
  change (admitSession host request now (some session) (store.scopeGeneration session.id) store >>=
    _) = _
  rw [hadmitted]
  exact hclaims

theorem Placed.claims_iff :
    Claims ((RelayOp.turn request clock now).execute host store) deliveryId delivery ↔
      Open now delivery message := by
  have hservice : ExactTurn (serviceTurn request) session deliveryId :=
    ⟨hexact.runtime, hexact.sessionRef, hexact.containerRef, hexact.exact, hexact.chars,
      hexact.messages, hexact.response, hexact.deadline, hexact.container, hexact.endpoint,
      hexact.generation⟩
  obtain ⟨after, response, hturn, hopened, hclosed⟩ :=
    @Placed.turnInScope host now store deliveryId delivery message session (serviceTurn request)
      clock hplaced hdistinct hservice
  have hbody : relayTurnBody host (serviceTurn request) clock now store = .ok (after, response) := by
    have hclock : ∀ reading, checkClaimExpiry (serviceTurn request) clock reading = .ok () := by
      intro reading
      simp [checkClaimExpiry, hservice.deadline, require]
    simp only [relayTurnBody, bind_eq_ok, require_eq_ok, pure_eq_ok]
    refine ⟨(), Or.inr ?_, (), ?_, (), hclock 1, (), hclock 2, (after, response), hturn, (),
      hclock 4, rfl⟩
    · rw [hservice.container, hservice.endpoint, hservice.generation]
      exact ⟨rfl, rfl, rfl⟩
    · rw [hservice.deadline]
      rfl
  have hexecute : (RelayOp.turn request clock now).execute host store =
      (after, .ok (.turn response)) := by
    change wrap .turn (relayTurn host (serviceTurn request) clock now store) = _
    rw [relayTurn, transaction, hbody]
    rfl
  rw [hexecute]
  constructor
  · rintro ⟨other, changed, hother, hlist, -⟩
    by_contra hshut
    obtain rfl : response = other := by
      have hequal := Except.ok.inj hother
      exact RelayResult.turn.inj hequal
    rw [hclosed hshut] at hlist
    cases hlist
  · exact hopened

end Turn

section Reached

variable {host : Host} {redaction : Redaction} {ops : List RelayOp} {now : ℤ}
  {deliveryId : String} {delivery : RelayDelivery} {session : RelaySession}
  {request : TurnRequest}

/-- The random identifiers drawn so far have 32 hexadecimal digits. -/
def DrawsHex (host : Host) (count : ℕ) : Prop :=
  ∀ draw < count, isHexOfLength 32 (host.uuid4Hex draw)

instance (host : Host) (count : ℕ) : Decidable (DrawsHex host count) :=
  inferInstanceAs (Decidable (∀ _ < count, _))

/-- What the service has stored for a delivery to an active Codex session. -/
theorem reached_placed (hserved : ∀ op ∈ ops, op.Served redaction) (hdigests : host.DigestsHex)
    (hdraws : DrawsHex host (Relay.reached host ops).drawn)
    (hget : (Relay.reached host ops).deliveries.get deliveryId = some delivery)
    (hrecipient : delivery.recipientEndpointId = some session.id)
    (hsession : (Relay.reached host ops).sessions.get session.id = some session)
    (hactive : session.state = .active) (hcodex : session.runtime = .codex) :
    ∃ message, Placed (Relay.reached host ops) deliveryId delivery message session := by
  have hstore := reached_presentable hdigests hserved
  obtain ⟨message, hmessage⟩ := (reached_ledgerWellFormed host ops).message deliveryId delivery hget
  obtain ⟨⟨endpointId, found, hendpoint, hfound, hruntime⟩, draw, hdraw, hid⟩ :=
    hstore.deliveries deliveryId delivery hget
  obtain rfl := Option.eq_some_unique hrecipient hendpoint
  obtain rfl := Option.eq_some_unique hsession hfound
  have hdeliveryId : Shown delivery.id := by
    rw [show delivery.id = deliveryId from Table.key_of_get hget, hid]
    have hdigits := hdraws draw hdraw
    rw [isHexOfLength, Bool.and_eq_true] at hdigits
    exact Shown.append (by decide) (allows_hex hdigits.2)
  have hpresentable := hstore.messages _ message hmessage
  have hline : ∀ value, Shown value → value ≠ "" ∧ singleLineRenderSafe value :=
    fun value hshown => ⟨hshown.1, singleLineRenderSafe_iff.mpr hshown.2⟩
  have hname : Shown message.senderRuntime.name := by
    cases message.senderRuntime <;> decide
  refine ⟨message, hget, hmessage, hrecipient, hsession, hactive, hcodex, hruntime ▸ hcodex, ?_⟩
  simp only [deliveryRenderSafe, Bool.and_eq_true, List.all_cons, List.all_nil, and_true,
    bne_iff_ne]
  refine ⟨⟨⟨hline _ hdeliveryId, hline _ hpresentable.id, hline _ hname,
    hline _ hpresentable.sender, hline _ (shown_isoformat _)⟩, hpresentable.payload.1,
    renderSafe_iff.mpr hpresentable.payload.2⟩, ?_⟩
  rw [Option.all_eq_true]
  intro parent hparent
  obtain ⟨hsome, hsafe⟩ := hline parent (hpresentable.parent parent hparent)
  rw [Bool.and_eq_true, bne_iff_ne]
  exact ⟨hsome, hsafe⟩

theorem isSpace_of_isLowerHex {c : Char} (hhex : isLowerHex c) : isSpace c = false := by
  have hrange : 48 ≤ c.toNat ∧ c.toNat ≤ 57 ∨ 97 ≤ c.toNat ∧ c.toNat ≤ 102 := by
    simp only [isLowerHex, Bool.or_eq_true, Bool.and_eq_true, decide_eq_true_eq] at hhex
    exact hhex
  simp only [isSpace, Bool.or_eq_false_iff, Bool.and_eq_false_iff, decide_eq_false_iff_not,
    beq_eq_false_iff_ne]
  omega

theorem validateExactDelivery_eq_ok {digits : String} (hdigits : isHexOfLength 32 digits) :
    validateExactDelivery .codex ("relay-delivery-" ++ digits) =
      .ok ("relay-delivery-" ++ digits) := by
  have hparts := hdigits
  rw [isHexOfLength, Bool.and_eq_true, beq_iff_eq] at hparts
  obtain ⟨hcount, hhex⟩ := hparts
  have hshown : Shown ("relay-delivery-" ++ digits) := Shown.append (by decide) (allows_hex hhex)
  have hspace : ∀ c ∈ ("relay-delivery-" ++ digits).toList, isSpace c = false := by
    intro c hc
    rw [String.toList_append, List.mem_append] at hc
    have hhead : "relay-delivery-".toList.all (fun c => !isSpace c) = true := by decide +kernel
    rcases hc with hfront | hback
    · exact Bool.not_eq_true' _ ▸ List.all_eq_true.mp hhead c hfront
    · exact isSpace_of_isLowerHex (List.all_eq_true.mp hhex c hback)
  have hstrip : strip ("relay-delivery-" ++ digits) = "relay-delivery-" ++ digits := by
    have hchars := stripped_of_no_space hspace
    rw [String.ofList_toList] at hchars
    rw [strip, hchars, String.ofList_toList]
  have hlength : ("relay-delivery-" ++ digits).length ≤ 128 := by
    rw [← String.length_toList, String.toList_append, List.length_append, hcount]
    decide
  simp only [validateExactDelivery, opaqueText, bind_eq_ok, require_eq_ok, pure_eq_ok]
  exact ⟨_, ⟨(), ⟨hshown.1, hstrip⟩, (), hlength, (), singleLineRenderSafe_iff.mpr hshown.2, rfl⟩,
    (), ⟨trivial, isHexIdentifier_append hdigits⟩, rfl⟩

/-- The four answers to the question whether the delivery can be delivered now: the
list of candidates with the coalesced ones, the pending candidate of the session's
scope, the reservation state, and the turn. -/
def eligibilityAnswers (host : Host) (store : RelayStore) (deliveryId : String)
    (delivery : RelayDelivery) (session : RelaySession) (request : TurnRequest)
    (clock : ClaimClock) (now : ℤ) : List Prop :=
  [∃ candidate ∈ relayWakeCandidates store none now true true, candidate.deliveryId = deliveryId,
    (relayPendingCandidate store session.runtime session.sessionRef session.containerRef
      (some deliveryId) now).map PendingCandidate.state = some .pending,
    ∃ state, reservationState store deliveryId now = some state ∧ state.state = .pending ∧
      state.wakeTarget.isSome,
    Claims ((RelayOp.turn request clock now).execute host store) deliveryId delivery]

/-- In every store that the service reaches, the reads and the exact turn agree on a
delivery to an active Codex session, and the service lets the turn through. -/
theorem wake_eligibility (hserved : ∀ op ∈ ops, op.Served redaction) (hdigests : host.DigestsHex)
    (hdraws : DrawsHex host (Relay.reached host ops).drawn)
    (hget : (Relay.reached host ops).deliveries.get deliveryId = some delivery)
    (hrecipient : delivery.recipientEndpointId = some session.id)
    (hsession : (Relay.reached host ops).sessions.get session.id = some session)
    (hactive : session.state = .active) (hcodex : session.runtime = .codex)
    (hexact : ExactTurn request session deliveryId) (clock : ClaimClock) (now : ℤ) :
    (RelayOp.turn request clock now).Served redaction ∧
      (eligibilityAnswers host (Relay.reached host ops) deliveryId delivery session request clock
        now).TFAE := by
  obtain ⟨message, hplaced⟩ :=
    reached_placed hserved hdigests hdraws hget hrecipient hsession hactive hcodex
  have hdistinct := reached_scopesDistinct host ops
  have hstore := reached_presentable hdigests hserved
  constructor
  · obtain ⟨-, draw, hdraw, hid⟩ := hstore.deliveries deliveryId delivery hget
    refine ⟨hexact.sessionRef ▸ hstore.sessions _ _ hsession, fun exact hsome => ?_⟩
    obtain rfl := Option.some.inj (hexact.exact.symm.trans hsome)
    rw [hexact.runtime, hcodex, hid]
    exact validateExactDelivery_eq_ok (hdraws draw hdraw)
  · unfold eligibilityAnswers
    tfae_have 1 ↔ 2 := hplaced.listed_iff.trans (hplaced.pending_iff hdistinct).symm
    tfae_have 2 ↔ 3 := (hplaced.pending_iff hdistinct).trans hplaced.reserved_iff.symm
    tfae_have 3 ↔ 4 := hplaced.reserved_iff.trans (hplaced.claims_iff hdistinct hexact).symm
    tfae_finish

section Example

/-- A pattern that matches nothing. -/
def silentPattern : Substitution.Pattern where
  pieces text := [.plain text]
  text_pieces text := by simp [Substitution.Piece.text]

/-- The redaction of texts without secrets. -/
def silentRedaction : Redaction where
  privateKeyBlock := silentPattern
  sensitiveHeader := silentPattern
  bearer := silentPattern
  apiKeyHeader := silentPattern
  envVarSecret := silentPattern
  envVarYamlSecret := silentPattern
  connectionString := silentPattern
  basicAuthUrl := silentPattern
  anthropicKey := silentPattern
  openaiProjKey := silentPattern
  openaiGenericKey := silentPattern
  githubToken := silentPattern
  slackTokenStrict := silentPattern
  slackTokenFallback := silentPattern
  awsKeyId := silentPattern
  jwt := silentPattern
  tierBToken := silentPattern
  keepsAssignment _ _ := true
  probableSecret _ _ := false

/-- Two Codex sessions, and a message from the first to the second. -/
def exampleWakeable : List RelayOp :=
  [.turn (exampleTurn .codex "sender") exampleClock 0,
    .turn (exampleTurn .codex "recipient") exampleClock 0, .send (exampleSend "message") 0]

def exampleExactTurn : TurnRequest :=
  { exampleTurn .codex "recipient" with
    maxMessages := 0
    exactDeliveryId := some exampleDeliveryId }

theorem exampleWakeable_served : ∀ op ∈ exampleWakeable, op.Served silentRedaction := by
  have hpayload : StoredPayload silentRedaction "question" := ⟨"question", "question", by decide +kernel⟩
  intro op hop
  simp only [exampleWakeable, List.mem_cons, List.not_mem_nil, or_false] at hop
  rcases hop with rfl | rfl | rfl
  · exact ⟨by decide +kernel, fun deliveryId hexact => nomatch hexact⟩
  · exact ⟨by decide +kernel, fun deliveryId hexact => nomatch hexact⟩
  · exact ⟨by decide +kernel, by decide +kernel,
      (fun parent hparent => nomatch hparent), hpayload⟩

theorem exampleHost_digestsHex : exampleHost.DigestsHex := by
  intro text
  have hdigest : exampleHost.sha256Hex text ∈
      ["a9c62483ba1e4ee9ad0f0afa7c66f1cefb29ad906ca63cb39e60d1ee1faf082c",
        "5d6f9601bd7f3064e06ef284c96eb097f744b847d8fcc4b2c4671710ce56ebd6", ""] := by
    unfold exampleHost
    dsimp only
    split_ifs
    · exact List.mem_cons_self
    · exact List.mem_cons_of_mem _ List.mem_cons_self
    · exact List.mem_cons_of_mem _ (List.mem_cons_of_mem _ List.mem_cons_self)
  generalize exampleHost.sha256Hex text = digest at hdigest
  revert digest
  decide

/-- The delivery of the message. -/
theorem wake_eligibility_message :
    ∃ delivery session,
      (Relay.reached exampleHost exampleWakeable).deliveries.get exampleDeliveryId =
        some delivery ∧
      (RelayOp.turn exampleExactTurn exampleClock 1000000).Served silentRedaction ∧
      (eligibilityAnswers exampleHost (Relay.reached exampleHost exampleWakeable)
        exampleDeliveryId delivery session exampleExactTurn exampleClock 1000000).TFAE := by
  have hstored : ((Relay.reached exampleHost exampleWakeable).deliveries.get
      exampleDeliveryId).isSome := by decide +kernel
  obtain ⟨delivery, hget⟩ := Option.isSome_iff_exists.mp hstored
  have hholder : ((Relay.reached exampleHost exampleWakeable).deliveries.get
      exampleDeliveryId).bind RelayDelivery.recipientEndpointId =
        some "relay-session-00000000000040008000000000000001" := by decide +kernel
  rw [hget, Option.bind_some] at hholder
  have hregistered : ((Relay.reached exampleHost exampleWakeable).sessions.get
      "relay-session-00000000000040008000000000000001").any (fun session =>
        session.state == .active && session.runtime == .codex &&
          session.sessionRef == "recipient" && session.containerRef == "repo:a") := by
    decide +kernel
  obtain ⟨session, hsession, hsome⟩ := (Option.any_eq_true _ _).mp hregistered
  simp only [Bool.and_eq_true, beq_iff_eq] at hsome
  obtain ⟨⟨⟨hactive, hcodex⟩, href⟩, hcontainer⟩ := hsome
  have hid := Table.key_of_get hsession
  rw [key_session] at hid
  rw [← hid] at hholder hsession
  have hexact : ExactTurn exampleExactTurn session exampleDeliveryId :=
    ⟨hcodex.symm, href.symm, hcontainer.symm, rfl, rfl, rfl, rfl, rfl, rfl, rfl, rfl⟩
  have hdraws : DrawsHex exampleHost (Relay.reached exampleHost exampleWakeable).drawn := by
    decide +kernel
  obtain ⟨hserved, hanswers⟩ := wake_eligibility exampleWakeable_served exampleHost_digestsHex
    hdraws hget hholder hsession hactive hcodex hexact exampleClock 1000000
  exact ⟨delivery, session, hget, hserved, hanswers⟩

end Example

end Reached

end Pallium.CodexWake
