import Pallium.Relay.Outcomes

/-!
# Every operation evolves the deliveries

For each operation of the service, what it does to the delivery rows is one of
the changes of `DeliveryChange`.  The session operations leave deliveries and
messages alone, and a turn does so up to its sweep and its claims.
-/

namespace Pallium.Relay

open Pallium.Transaction

variable {host : Host} {now : ℤ} {writes : Option String} {store after : RelayStore}

section Sessions

/-- An operation that writes neither deliveries nor messages. -/
structure Quiet (before after : RelayStore) : Prop where
  deliveries : after.deliveries = before.deliveries
  messages : after.messages = before.messages
  sessions : SessionsKept before after
  drawn : before.drawn ≤ after.drawn

theorem Quiet.refl (store : RelayStore) : Quiet store store :=
  ⟨rfl, rfl, SessionsKept.refl store, le_rfl⟩

theorem Quiet.trans {before middle after : RelayStore} (hfirst : Quiet before middle)
    (hsecond : Quiet middle after) : Quiet before after :=
  ⟨hsecond.deliveries.trans hfirst.deliveries, hsecond.messages.trans hfirst.messages,
    hfirst.sessions.trans hsecond.sessions, hfirst.drawn.trans hsecond.drawn⟩

theorem Quiet.evolves {before after : RelayStore} (hquiet : Quiet before after) :
    Evolves host now writes before after :=
  Evolves.of_frame hquiet.deliveries hquiet.messages hquiet.sessions hquiet.drawn

theorem quiet_refreshed (endpointId : String) {change : RelaySession → RelaySession}
    (hchange : ∀ session, Refreshed session (change session)) :
    Quiet store (store.modifySession endpointId change) :=
  ⟨rfl, rfl, SessionsKept.of_modify rfl fun session =>
    ⟨(hchange session).id, (hchange session).runtime, (hchange session).sessionRef⟩, le_rfl⟩

theorem SessionWritten.quiet (hwritten : SessionWritten store after) : Quiet store after := by
  cases hwritten with
  | woken => exact ⟨rfl, rfl, SessionsKept.of_eq rfl, le_rfl⟩
  | refreshed endpointId change wakes hchange =>
    exact ⟨rfl, rfl, (@quiet_refreshed store endpointId change hchange).sessions, le_rfl⟩
  | closed => exact ⟨rfl, rfl, SessionsKept.of_modify rfl fun _ => ⟨rfl, rfl, rfl⟩, le_rfl⟩
  | named row newAlias =>
    refine ⟨rfl, rfl, SessionsKept.of_updateAll rfl fun session => ?_, le_rfl⟩
    obtain ⟨hid, -, hscope⟩ := nameSession_scope row.id newAlias session
    exact ⟨hid, hscope⟩
  | unnamed => exact ⟨rfl, rfl, SessionsKept.of_modify rfl fun _ => ⟨rfl, rfl, rfl⟩, le_rfl⟩

end Sessions

section Turns

variable {request : TurnRequest}

variable {clock : ClaimClock}

theorem resolveScope_quiet {registered : Option RelaySession} {generation : ℕ}
    (hscope : resolveScope request store = .ok (after, registered, generation)) :
    Quiet store after :=
  resolveScope_cases hscope (Quiet.refl store) fun _ _ =>
    ⟨rfl, rfl, SessionsKept.of_modify rfl fun _ => ⟨rfl, rfl, rfl⟩, le_rfl⟩

theorem sessionsKept_insertNew {session : RelaySession} {sessions : Table RelaySession}
    (hinsert : store.sessions.insertNew session = some sessions)
    (hsessions : after.sessions = sessions) : SessionsKept store after := by
  intro endpointId found hget
  refine ⟨found, ?_, rfl, rfl⟩
  rw [hsessions, Table.get_insertNew hinsert, if_neg, hget]
  rintro rfl
  rw [Table.get_eq_none_of_insertNew hinsert] at hget
  cases hget

theorem admitSession_quiet {registered : Option RelaySession} {generation : ℕ}
    {admission : Admission}
    (hadmitted : admitSession host request now registered generation store =
      .ok (after, admission)) : Quiet store after :=
  admitSession_cases hadmitted (Quiet.refl store)
    (fun _ _ _ hinsert => ⟨rfl, rfl, sessionsKept_insertNew hinsert rfl, Nat.le_succ _⟩)
    fun _ _ => quiet_refreshed _

theorem mem_openDeliveries {wanted : RelayDelivery → Bool} {delivery : RelayDelivery}
    {message : RelayMessage}
    (hmem : (delivery, message) ∈ openDeliveries store now wanted) :
    store.deliveries.get delivery.id = some delivery ∧
      store.messages.get delivery.messageId = some message ∧
      wanted delivery ∧ claimable now delivery ∧ now < message.expiresAt := by
  rw [openDeliveries, List.mem_insertionSort, List.mem_filterMap] at hmem
  obtain ⟨other, hother, hbind⟩ := hmem
  obtain ⟨found, hfound, hif⟩ := Option.bind_eq_some_iff.mp hbind
  split at hif
  · next hopen =>
      obtain ⟨rfl, rfl⟩ := Prod.mk.inj (Option.some.inj hif)
      simp only [Bool.and_eq_true, decide_eq_true_eq] at hopen
      exact ⟨Table.get_of_mem hother, hfound, hopen.1.1, hopen.1.2, hopen.2⟩
  · cases hif

/-- The selection grew by rows of the list, each with a token drawn for it. -/
structure SelectedFrom (context : TurnContext) (rows : List (RelayDelivery × RelayMessage))
    (start result : Selection) : Prop where
  drawn : start.drawn ≤ result.drawn
  selected : ∀ chosen ∈ result.selected, chosen ∈ start.selected ∨
    (chosen.delivery, chosen.message) ∈ rows ∧ ∃ draw, start.drawn ≤ draw ∧
      draw < result.drawn ∧ chosen.token = claimTokenOf context.host draw

variable {context : TurnContext}

theorem SelectedFrom.refl (rows : List (RelayDelivery × RelayMessage)) (selection : Selection) :
    SelectedFrom context rows selection selection :=
  ⟨le_rfl, fun _ hchosen => Or.inl hchosen⟩

theorem examine_selectedFrom (context : TurnContext) (selection : Selection)
    (row : RelayDelivery × RelayMessage) :
    SelectedFrom context [row] selection (examine context selection row) := by
  obtain ⟨delivery, message⟩ := row
  unfold examine
  simp only
  split
  · split
    · exact ⟨Nat.le_succ _, fun _ hchosen => Or.inl hchosen⟩
    · refine ⟨Nat.le_succ _, fun chosen hchosen => ?_⟩
      rcases List.mem_append.mp hchosen with hbefore | hnew
      · exact Or.inl hbefore
      · obtain rfl := List.mem_singleton.mp hnew
        exact Or.inr ⟨List.mem_singleton_self _, selection.drawn, le_rfl, Nat.lt_succ_self _, rfl⟩
  · exact SelectedFrom.refl _ selection

theorem selectDeliveries_selectedFrom (context : TurnContext) (selection : Selection)
    (rows : List (RelayDelivery × RelayMessage)) :
    SelectedFrom context rows selection (selectDeliveries context selection rows) := by
  induction rows generalizing selection with
  | nil => exact SelectedFrom.refl _ selection
  | cons row rest ih =>
    have hfirst := examine_selectedFrom context selection row
    unfold selectDeliveries
    simp only
    split
    · refine ⟨hfirst.drawn, fun chosen hchosen => ?_⟩
      rcases hfirst.selected chosen hchosen with hbefore | ⟨hrow, hdraw⟩
      · exact Or.inl hbefore
      · exact Or.inr ⟨List.mem_cons.mpr (Or.inl (List.mem_singleton.mp hrow)), hdraw⟩
    · have hrest := ih (examine context selection row)
      refine ⟨hfirst.drawn.trans hrest.drawn, fun chosen hchosen => ?_⟩
      rcases hrest.selected chosen hchosen with hnext | ⟨hrow, draw, hdraw, hlast, htoken⟩
      · rcases hfirst.selected chosen hnext with hbefore | ⟨hrow, draw, hdraw, hlast, htoken⟩
        · exact Or.inl hbefore
        · exact Or.inr ⟨List.mem_cons.mpr (Or.inl (List.mem_singleton.mp hrow)), draw, hdraw,
            hlast.trans_le hrest.drawn, htoken⟩
      · exact Or.inr ⟨List.mem_cons_of_mem _ hrow, draw, hfirst.drawn.trans hdraw, hlast, htoken⟩

theorem id_claimIfSelected (selection : Selection) (delivery : RelayDelivery) :
    (claimIfSelected context selection delivery).id = delivery.id := by
  unfold claimIfSelected
  split <;> rfl

theorem claimSelected_frame (context : TurnContext) (wake : Option OpenCodeWake)
    (selection : Selection) (store : RelayStore) :
    (claimSelected context wake selection store).deliveries =
        store.deliveries.updateAll (claimIfSelected context selection) ∧
      (claimSelected context wake selection store).messages = store.messages ∧
      (claimSelected context wake selection store).sessions = store.sessions ∧
      (claimSelected context wake selection store).drawn = selection.drawn := by
  cases wake with
  | none => exact ⟨rfl, rfl, rfl, rfl⟩
  | some held => exact ⟨rfl, rfl, rfl, rfl⟩

theorem selectEligible_selectedFrom (context : TurnContext) (store : RelayStore) :
    SelectedFrom context (eligibleFor context.session context.current store)
      ⟨[], 0, store.drawn⟩ (selectEligible context store) := by
  have hselected := selectDeliveries_selectedFrom context ⟨[], 0, store.drawn⟩
    ((eligibleFor context.session context.current store).filter fun row =>
      context.request.exactDeliveryId.all fun deliveryId => row.1.id == deliveryId)
  refine ⟨hselected.drawn, fun chosen hchosen => ?_⟩
  rcases hselected.selected chosen hchosen with hbefore | ⟨hrow, hdraw⟩
  · exact Or.inl hbefore
  · exact Or.inr ⟨(List.mem_filter.mp hrow).1, hdraw⟩

/-- A row after the claims is unchanged or was claimed while it was claimable. -/
theorem claimIfSelected_cases (context : TurnContext) {delivery : RelayDelivery}
    (hget : store.deliveries.get delivery.id = some delivery) :
    claimIfSelected context (selectEligible context store) delivery = delivery ∨
      ∃ message draw, claimable context.current delivery ∧
        store.messages.get delivery.messageId = some message ∧
        context.current < message.expiresAt ∧ store.drawn ≤ draw ∧
        draw < (selectEligible context store).drawn ∧
        claimIfSelected context (selectEligible context store) delivery =
          delivery.claim (claimTokenOf context.host draw) context.current context.leaseExpiresAt
            (context.claimGeneration delivery) := by
  unfold claimIfSelected
  split
  · exact Or.inl rfl
  · next chosen hfound =>
      have hchosen := List.mem_of_find?_eq_some hfound
      have hid : chosen.delivery.id = delivery.id := by simpa using List.find?_some hfound
      rcases (selectEligible_selectedFrom context store).selected chosen hchosen with
        hbefore | ⟨hrow, draw, hdraw, hlast, htoken⟩
      · cases hbefore
      · obtain ⟨hstored, hmessage, -, hclaimable, hlive⟩ := mem_openDeliveries hrow
        rw [hid, hget] at hstored
        cases hstored
        exact Or.inr ⟨chosen.message, draw, hclaimable, hmessage, hlive, hdraw, hlast, by rw [htoken]⟩

theorem claimSelected_evolves (context : TurnContext) (wake : Option OpenCodeWake)
    (hlease : context.request.leaseSeconds = relayClaimLeaseSeconds) :
    Evolves context.host context.current writes store
      (claimSelected context wake (selectEligible context store) store) := by
  obtain ⟨hdeliveries, hmessages, hsessions, hdrawn⟩ :=
    claimSelected_frame context wake (selectEligible context store) store
  have hget : ∀ deliveryId,
      (claimSelected context wake (selectEligible context store) store).deliveries.get deliveryId =
        (store.deliveries.get deliveryId).map
          (claimIfSelected context (selectEligible context store)) := by
    intro deliveryId
    rw [hdeliveries]
    exact Table.get_updateAll _ (id_claimIfSelected _) _
  refine ⟨fun deliveryId delivery hbefore => ?_, .nothing hmessages fun deliveryId hnone => ?_,
    SessionsKept.of_eq hsessions, ?_⟩
  · refine ⟨_, by rw [hget, hbefore, Option.map_some], ?_⟩
    obtain rfl := Table.key_of_get hbefore
    rcases claimIfSelected_cases context hbefore with
      hsame | ⟨message, draw, hclaimable, hmessage, hlive, hdraw, hlast, hclaim⟩
    · rw [hsame]
      exact .same
    · rw [hclaim, TurnContext.leaseExpiresAt, hlease]
      refine .claimed hclaimable ?_ hlive hdraw ?_
      · rw [hmessages, hmessage]
      · rw [hdrawn]
        exact hlast
  · rw [hget, hnone, Option.map_none]
  · rw [hdrawn]
    exact (selectEligible_selectedFrom context store).drawn

section

variable {wake : Option OpenCodeWake} {response : TurnResponse}
  (hlease : request.leaseSeconds = relayClaimLeaseSeconds)
include hlease

theorem claimEligible_evolves {session : RelaySession}
    {view : SessionView}
    (hclaims : claimEligible host request clock now wake session view store =
      .ok (after, response)) : Evolves host now writes store after := by
  have hsweeps : Sweeps now store (store.sweepExpired now) := sweeps_sweepExpired store
  rcases claimEligible_cases hclaims with ⟨rfl, -⟩ | ⟨rfl, -⟩
  · exact hsweeps.evolves
  · exact hsweeps.then_evolves (claimSelected_evolves
      (turnContext host request now wake session view (store.sweepExpired now)) wake hlease)

theorem turnInScope_evolves
    (hturn : turnInScope host request clock now wake store = .ok (after, response)) :
    Evolves host now writes store after := by
  obtain ⟨resolved, registered, generation, admitted, admission, hscope, hadmitted, hrest⟩ :=
    turnInScope_steps hturn
  have hquiet := (resolveScope_quiet hscope).trans (admitSession_quiet hadmitted)
  rcases hrest with ⟨-, -, rfl, -⟩ | ⟨session, view, -, hclaims⟩
  · exact hquiet.evolves
  · exact Evolves.of_frame_left hquiet.deliveries hquiet.messages hquiet.sessions hquiet.drawn
      (claimEligible_evolves hlease hclaims)

end

theorem openCodeContext_sweeps {native : OpenCodeRequest} {wake : OpenCodeWake}
    {replay : Option TurnResponse}
    (hcontext : openCodeContext host request native now store = .ok (after, wake, replay)) :
    Sweeps now store after :=
  openCodeContext_cases hcontext (Sweeps.refl store) fun _ hget hdue => sweeps_markExpired hget hdue

theorem relayTurn_evolves (hlease : request.leaseSeconds = relayClaimLeaseSeconds) :
    Evolves host now writes store (relayTurn host request clock now store).1 :=
  relayTurn_cases (Evolves.refl store) (fun hturn => turnInScope_evolves hlease hturn)
    (fun _ hcontext => (openCodeContext_sweeps hcontext).evolves)
    fun _ hcontext hturn =>
      (openCodeContext_sweeps hcontext).then_evolves (turnInScope_evolves hlease hturn)

end Turns

section Repairs

variable {manifest : RepairManifest} {evidence : RepairEvidence} {delivery : RelayDelivery}

theorem id_applyDisposition (manifest : RepairManifest) (destination : Option RelaySession)
    (delivery : RelayDelivery) :
    (applyDisposition manifest destination delivery).id = delivery.id := by
  unfold applyDisposition
  split
  · rfl
  · split
    · simp
    · split <;> rfl

theorem checkItem_eq_ok {item : RepairItem} {result : Unit}
    (hcheck : checkItem host manifest evidence now store item = .ok result)
    (hget : store.deliveries.get item.deliveryId = some delivery) :
    delivery.state = .pending ∨
      manifest.schemaVersion = 2 ∧ claimRunOut now delivery ∧ item.disposition = .suppress := by
  simp only [checkItem, bind_eq_ok, orRaise_eq_ok, require_eq_ok] at hcheck
  obtain ⟨⟨found, message⟩, hrow, -, ⟨-, -, -, hopen, -⟩, -⟩ := hcheck
  have hfound := (RelayStore.deliveryWithMessage_eq_some.mp hrow).1
  rw [hget] at hfound
  cases hfound
  exact hopen

theorem applyDisposition_change (destination : Option RelaySession)
    (hchecks : ∀ item ∈ manifest.dispositions,
      checkItem host manifest evidence now store item = .ok ())
    (hget : store.deliveries.get delivery.id = some delivery) :
    DeliveryChange host store after now delivery
      (applyDisposition manifest destination delivery) := by
  unfold applyDisposition
  split
  · exact .same
  · next item hfound =>
      have hitem := hchecks item (List.mem_of_find?_eq_some hfound)
      have hid : item.deliveryId = delivery.id := by simpa using List.find?_some hfound
      have hopen := checkItem_eq_ok hitem (hid ▸ hget)
      split
      · refine .suppressed ?_
        rcases hopen with hpending | ⟨hversion, hrunOut, -⟩
        · refine Or.inl ⟨hpending, ?_⟩
          simp [hpending]
        · have hclaimed : delivery.state = .claimed := by
            simp only [claimRunOut, Bool.and_eq_true, beq_iff_eq] at hrunOut
            exact hrunOut.1
          refine Or.inr ⟨hrunOut, ?_⟩
          simp [hversion, hclaimed]
      · next hadopt =>
          split
          · exact .same
          · rcases hopen with hpending | ⟨-, -, hsuppress⟩
            · exact .adopted hpending
            · rw [hadopt] at hsuppress
              cases hsuppress

theorem relayEndpointRepairApply_evolves (manifest : RepairManifest) (evidence : RepairEvidence) :
    Evolves host now writes store (relayEndpointRepairApply host manifest evidence now store).1 := by
  refine transaction_related (Evolves.refl store) fun after result hbody => ?_
  simp only [relayEndpointRepairBody, bind_eq_ok] at hbody
  obtain ⟨-, -, hbody⟩ := hbody
  split at hbody
  · simp only [bind_eq_ok, pure_eq_ok, Prod.mk.injEq] at hbody
    obtain ⟨-, -, rfl, -⟩ := hbody
    exact Evolves.refl store
  · simp only [bind_eq_ok, orRaise_eq_ok, pure_eq_ok, forM_eq_ok, Prod.mk.injEq] at hbody
    obtain ⟨-, -, -, -, destination, -, -, hchecks, repairs, -, rfl, -⟩ := hbody
    have hafter := Table.get_updateAll store.deliveries
      (id_applyDisposition manifest destination)
    refine ⟨fun deliveryId delivery hget => ?_, .nothing rfl fun deliveryId hnone => ?_,
      SessionsKept.of_eq rfl, le_rfl⟩
    · have hrow := hafter deliveryId
      rw [hget, Option.map_some] at hrow
      obtain rfl := Table.key_of_get hget
      exact ⟨_, hrow, applyDisposition_change destination hchecks hget⟩
    · exact (hafter deliveryId).trans (by rw [hnone, Option.map_none])

end Repairs

theorem RelayOp.step_evolves (host : Host) (store : RelayStore) (op : RelayOp) :
    Evolves host op.now (op.writes host) store (op.step host store) := by
  cases op with
  | send request now => exact relaySend_evolves request
  | reply request now => exact (relayReplyAtomic_outcome (serviceReply host request)).evolves
  | turn request clock now => exact relayTurn_evolves rfl
  | openCodeContext request maxChars now => exact relayTurn_evolves rfl
  | ack deliveryId claimToken now => exact (relayAck_outcome deliveryId claimToken).evolves
  | ackByReceipt deliveryId receipt now => exact (relayAckByReceipt_outcome host deliveryId receipt).evolves
  | messageStatus messageId offset pageSize now =>
    exact relayMessageStatus_evolves messageId offset pageSize
  | repairApply manifest evidence now => exact relayEndpointRepairApply_evolves manifest evidence
  | _ => exact (RelayOp.step_written (by trivial)).quiet.evolves

end Pallium.Relay
