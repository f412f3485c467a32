import Pallium.Relay.Identifiers
import Pallium.Relay.Selection

/-!
# The wake bridge over whole runs

The service changes only by the requests it serves, so what holds of every Relay
run holds of the world of the bridge.  Only a poll assigns a delivery: it keeps an
assignment without a terminal record, gives up a settled one whose delivery is done,
and then assigns the oldest delivery that can be claimed.
-/

namespace Pallium.Relay

open Pallium.Run Pallium.Transaction Pallium.Calendar

section Served

variable {host : Host} {plugin : Plugin} {world : NativeWorld}

/-- Some validated requests turn the first store into the second one. -/
def ServedTo (host : Host) (before after : RelayStore) : Prop :=
  ∃ ops : List RelayOp, (∀ op ∈ ops, op.Validated) ∧ run (RelayOp.step host) before ops = after

theorem ServedTo.refl (store : RelayStore) : ServedTo host store store :=
  ⟨[], fun _ hop => (List.not_mem_nil hop).elim, rfl⟩

theorem ServedTo.trans {before middle after : RelayStore} (hfirst : ServedTo host before middle)
    (hsecond : ServedTo host middle after) : ServedTo host before after := by
  obtain ⟨first, hfirstValid, rfl⟩ := hfirst
  obtain ⟨second, hsecondValid, rfl⟩ := hsecond
  refine ⟨first ++ second, fun op hop => ?_, run_append _ _ _ _⟩
  rcases List.mem_append.mp hop with hop | hop
  · exact hfirstValid op hop
  · exact hsecondValid op hop

theorem ServedTo.one {store : RelayStore} {op : RelayOp} (hvalid : op.Validated) :
    ServedTo host store (op.step host store) := by
  refine ⟨[op], fun other hother => ?_, rfl⟩
  obtain rfl := List.mem_singleton.mp hother
  exact hvalid

theorem wakeRequest_served {operation : OpenCodeOperation} {request : OpenCodeRequest}
    (hvalid : validateWakeSnapshot (some operation) request = .ok ()) (call : PluginCall)
    (store : RelayStore) : ServedTo host store (wakeRequest operation request call store).1 := by
  have hserved : ServedTo host store (relayOpenCodeWake operation request call.now store).1 :=
    @ServedTo.one host store (.openCodeWake operation request call.now) hvalid
  unfold wakeRequest
  cases call.link with
  | unsent => exact ServedTo.refl store
  | lost => exact hserved
  | answered => exact hserved

theorem enroll_served (owned : Bool) (call : PluginCall) :
    ServedTo host world.store (plugin.enroll owned call world).1.store := by
  unfold Plugin.enroll
  cases world.item.endpoint with
  | none => exact ServedTo.refl _
  | some endpoint =>
    cases owned with
    | false => exact ServedTo.refl _
    | true =>
      have hserved := @wakeRequest_served host .enroll
        (plugin.base world.item.ownerId endpoint) rfl call world.store
      simp only [if_true]
      generalize wakeRequest .enroll (plugin.base world.item.ownerId endpoint) call
        world.store = outcome at hserved
      obtain ⟨store, answer⟩ := outcome
      cases answer with
      | none => exact hserved
      | some result => cases result <;> exact hserved

theorem store_acceptPoll (owned : Bool) (response : Option OpenCodeResponse) :
    (plugin.acceptPoll owned response world).store = world.store := by
  unfold Plugin.acceptPoll
  cases response with
  | none => rfl
  | some response =>
    cases owned with
    | false => rfl
    | true =>
      simp only [if_true]
      cases plugin.remember world.item response.session <;> rfl

theorem poll_served (calls : Plugin.PollCalls) :
    ServedTo host world.store (plugin.poll calls world).store := by
  unfold Plugin.poll
  cases world.item.endpoint with
  | none => exact ServedTo.refl _
  | some endpoint =>
    cases calls.owned with
    | false => exact wakeRequest_served rfl calls.detach world.store
    | true =>
      have hserved := @wakeRequest_served host .poll
        (plugin.base world.item.ownerId endpoint) rfl calls.poll world.store
      simp only [if_true]
      generalize wakeRequest .poll (plugin.base world.item.ownerId endpoint) calls.poll
        world.store = outcome at hserved
      obtain ⟨store, answer⟩ := outcome
      cases answer with
      | none => exact hserved
      | some result =>
        cases result with
        | ok response =>
          simp only [store_acceptPoll]
          exact hserved
        | error raised =>
          simp only
          split
          · rename_i heq
            cases heq
          · rw [store_acceptPoll]
            exact hserved.trans (@enroll_served host plugin { world with store := store }
              calls.enrollOwned calls.enroll)
          · exact hserved

theorem advance_served (owned : Bool) (call : PluginCall) :
    ServedTo host world.store (plugin.advance owned call world).store := by
  unfold Plugin.advance
  cases hrun : world.item.run with
  | none => exact ServedTo.refl _
  | some running =>
    obtain ⟨wake, stage⟩ := running
    cases hendpoint : world.item.endpoint with
    | none => exact ServedTo.refl _
    | some endpoint =>
      cases owned with
      | false => exact ServedTo.refl _
      | true =>
        simp only [if_true]
        cases stage with
        | reading =>
          simp only
          split
          · exact ServedTo.refl _
          · split <;> exact ServedTo.refl _
        | prompting => exact ServedTo.refl _
        | checking =>
          simp only
          split <;> exact ServedTo.refl _
        | admitting => exact wakeRequest_served rfl call world.store
        | waiting => exact ServedTo.refl _
        | correlating =>
          simp only
          split <;> exact ServedTo.refl _
        | reporting terminalMessageId => exact wakeRequest_served rfl call world.store

theorem NativeWorld.step_served (act : NativeAct)
    (hvalid : ∀ op, act = .relay op → op.Validated) :
    ServedTo host world.store (world.step host plugin act).store := by
  cases act with
  | relay op => exact ServedTo.one (hvalid op rfl)
  | restore session owned enroll =>
    simp only [NativeWorld.step]
    cases plugin.remember world.item session with
    | none => exact ServedTo.refl _
    | some item => exact @enroll_served host plugin { world with item := item } owned enroll
  | poll calls => exact poll_served calls
  | advance owned call => exact advance_served owned call
  | _ => exact ServedTo.refl _

theorem NativeWorld.Reachable.served (hreachable : world.Reachable host plugin) :
    ∃ ops, (∀ op ∈ ops, op.Validated) ∧ world.store = reached host ops := by
  obtain ⟨ownerId, acts, hvalid, rfl⟩ := hreachable
  have hserved : ServedTo host RelayStore.empty
      (run (NativeWorld.step host plugin) (.initial ownerId) acts).store := by
    induction acts using List.reverseRecOn with
    | nil => exact ServedTo.refl _
    | append_singleton acts act ih =>
      rw [run_append]
      refine (ih fun op hop => hvalid op (List.mem_append_left _ hop)).trans ?_
      refine NativeWorld.step_served act fun op hop => hvalid op ?_
      rw [hop]
      exact List.mem_append_right _ (List.mem_singleton_self _)
  obtain ⟨ops, hops, hrun⟩ := hserved
  exact ⟨ops, hops, hrun.symm⟩

end Served

section Done

variable {host : Host} {store after : RelayStore} {deliveryId : String} {since now : ℤ}
  {delivery : RelayDelivery}

/-- The delivery is delivered, suppressed or expired, or its message has expired. -/
def Done (store : RelayStore) (deliveryId : String) (since : ℤ) : Prop :=
  ∃ delivery, store.deliveries.get deliveryId = some delivery ∧
    (delivery.Finished ∨ ∃ message, store.messages.get delivery.messageId = some message ∧
      message.expiresAt ≤ since)

theorem Done.step (hdone : Done store deliveryId since) (op : RelayOp) :
    Done (op.step host store) deliveryId since := by
  obtain ⟨delivery, hget, hended⟩ := hdone
  have hevolves := op.step_evolves host store
  obtain ⟨changed, hchanged, hchange⟩ := hevolves.kept deliveryId delivery hget
  refine ⟨changed, hchanged, ?_⟩
  rcases hended with hfinished | ⟨message, hmessage, hexpired⟩
  · rw [hchange.of_finished hfinished]
    exact Or.inl hfinished
  · refine Or.inr ⟨message, ?_, hexpired⟩
    rw [hchange.sameAddress.1]
    exact hevolves.messages delivery.messageId message hmessage

theorem Done.served (hdone : Done store deliveryId since) (hserved : ServedTo host store after) :
    Done after deliveryId since := by
  obtain ⟨ops, -, rfl⟩ := hserved
  exact @run_invariant _ _ _ (fun current => Done current deliveryId since) store hdone
    (fun _ op hstill => hstill.step op) ops

theorem Done.not_open (hdone : Done store deliveryId since) (hlater : since ≤ now)
    {message : RelayMessage}
    (hget : store.deliveries.get deliveryId = some delivery)
    (hmessage : store.messages.get delivery.messageId = some message)
    (hlive : now < message.expiresAt) : delivery.Finished := by
  obtain ⟨found, hfound, hended⟩ := hdone
  obtain rfl := Option.eq_some_unique hget hfound
  rcases hended with hfinished | ⟨expired, hexpired, hbefore⟩
  · exact hfinished
  · obtain rfl := Option.eq_some_unique hmessage hexpired
    omega

theorem RelayDelivery.Finished.not_claimable (hfinished : delivery.Finished) :
    claimable now delivery = false := by
  rcases hfinished with hstate | hstate | hstate <;> simp [claimable, hstate]

theorem RelayDelivery.Finished.not_claimed (hfinished : delivery.Finished) :
    (delivery.state == .claimed) = false := by
  rcases hfinished with hstate | hstate | hstate <;> rw [hstate] <;> rfl

theorem Done.settleTerminal {wake : OpenCodeWake} (hdone : Done store deliveryId since)
    (hlater : since ≤ now) (hassigned : wake.deliveryId = some deliveryId)
    (hterminal : wake.terminal = true) :
    settleTerminal store now wake = { wake with deliveryId := none, failures := 0 } := by
  have hopen := fun delivery message => @Done.not_open store deliveryId since now delivery hdone
    hlater message
  obtain ⟨delivery, hget, -⟩ := hdone
  unfold Relay.settleTerminal
  simp only [hassigned, hterminal, Option.bind_some, hget, Option.isSome_some, Bool.and_self,
    if_true, Option.any_some]
  refine if_pos ?_
  cases hmessage : store.messages.get delivery.messageId with
  | none => rfl
  | some message =>
    by_cases hlive : now < message.expiresAt
    · have hfinished := hopen delivery message hget hmessage hlive
      simp [hfinished.not_claimable, hfinished.not_claimed]
    · simp [hlive]

end Done

section Assigned

variable {plugin : Plugin} {store : RelayStore} {endpointId : String} {now : ℤ}
  {request : OpenCodeRequest}

/-- A delivery for which the session of the endpoint can be woken. -/
structure Eligible (plugin : Plugin) (endpointId : String) (store : RelayStore) (now : ℤ)
    (row : RelayDelivery × RelayMessage) : Prop where
  delivery : store.deliveries.get row.1.id = some row.1
  message : store.messages.get row.1.messageId = some row.2
  endpoint : row.1.recipientEndpointId = some endpointId
  runtime : row.1.recipientRuntime = .openCode
  sessionRef : row.1.recipientSessionRef = plugin.sessionRef
  containerRef : row.1.recipientContainerRef = some plugin.containerRef
  claimable : claimable now row.1
  live : now < row.2.expiresAt
  safe : deliveryRenderSafe row.1 row.2

/-- The choice is the oldest eligible delivery, or there is none. -/
def Oldest (plugin : Plugin) (endpointId : String) (store : RelayStore) (now : ℤ) :
    Option String → Prop
  | none => ∀ row, ¬ Eligible plugin endpointId store now row
  | some deliveryId => ∃ row, Eligible plugin endpointId store now row ∧ row.1.id = deliveryId ∧
      ∀ other, Eligible plugin endpointId store now other → deliveryOrder row other

/-- The deliveries that a poll of the plugin looks for. -/
def wantedBy (request : OpenCodeRequest) (delivery : RelayDelivery) : Bool :=
  delivery.recipientEndpointId == some request.endpointId &&
    delivery.recipientRuntime == .openCode &&
    delivery.recipientSessionRef == request.sessionRef &&
    delivery.recipientContainerRef == some request.containerRef

theorem eligible_iff {row : RelayDelivery × RelayMessage}
    (hsession : request.sessionRef = plugin.sessionRef)
    (hcontainer : request.containerRef = plugin.containerRef)
    (hendpoint : request.endpointId = endpointId) :
    Eligible plugin endpointId store now row ↔
      row ∈ openDeliveries store now (wantedBy request) ∧ deliveryRenderSafe row.1 row.2 := by
  obtain ⟨delivery, message⟩ := row
  subst hendpoint
  constructor
  · intro heligible
    refine ⟨?_, heligible.safe⟩
    have hwanted : wantedBy request delivery = true := by
      simp only [wantedBy, Bool.and_eq_true, beq_iff_eq, hsession, hcontainer]
      exact ⟨⟨⟨heligible.endpoint, heligible.runtime⟩, heligible.sessionRef⟩,
        heligible.containerRef⟩
    rw [openDeliveries, List.mem_insertionSort, List.mem_filterMap]
    refine ⟨delivery, Table.mem_of_get heligible.delivery, ?_⟩
    rw [heligible.message, Option.bind_some, hwanted, heligible.claimable,
      decide_eq_true heligible.live]
    rfl
  · rintro ⟨hmem, hsafe⟩
    obtain ⟨hdelivery, hmessage, hwanted, hclaimable, hlive⟩ := mem_openDeliveries hmem
    simp only [wantedBy, Bool.and_eq_true, beq_iff_eq, hsession, hcontainer] at hwanted
    obtain ⟨⟨⟨hendpoint, hruntime⟩, href⟩, hcontainer⟩ := hwanted
    exact ⟨hdelivery, hmessage, hendpoint, hruntime, href, hcontainer, hclaimable, hlive, hsafe⟩

/-- A wake without a delivery is assigned the oldest eligible one. -/
theorem assignOldest_oldest {session : RelaySession} {wake : OpenCodeWake}
    (hfree : wake.deliveryId = none)
    (hid : session.id = request.endpointId) (hsession : request.sessionRef = plugin.sessionRef)
    (hcontainer : request.containerRef = plugin.containerRef)
    (hendpoint : request.endpointId = endpointId) :
    Oldest plugin endpointId store now
      (assignOldest store session request now wake).deliveryId := by
  have heligible := fun row =>
    @eligible_iff plugin store endpointId now request row hsession hcontainer hendpoint
  have hwanted : (fun delivery : RelayDelivery =>
      delivery.recipientEndpointId == some session.id && delivery.recipientRuntime == .openCode &&
        delivery.recipientSessionRef == request.sessionRef &&
        delivery.recipientContainerRef == some request.containerRef) = wantedBy request := by
    funext delivery
    rw [hid, wantedBy]
  unfold assignOldest
  simp only [hfree, Option.isNone_none, if_true, hwanted]
  cases hfound : (openDeliveries store now (wantedBy request)).find? fun row =>
      deliveryRenderSafe row.1 row.2 with
  | none =>
    rw [hfree]
    intro row hrow
    obtain ⟨hmem, hsafe⟩ := (heligible row).mp hrow
    exact List.find?_eq_none.mp hfound row hmem hsafe
  | some row =>
    obtain ⟨hsafe, earlier, later, hsplit, hskipped⟩ :=
      List.find?_eq_some_iff_append.mp hfound
    refine ⟨row, (heligible row).mpr ⟨List.mem_of_find?_eq_some hfound, hsafe⟩, rfl,
      fun other hother => ?_⟩
    obtain ⟨hmem, hotherSafe⟩ := (heligible other).mp hother
    have hsorted : (openDeliveries store now (wantedBy request)).Pairwise deliveryOrder :=
      List.pairwise_insertionSort deliveryOrder _
    rw [hsplit] at hmem hsorted
    rcases List.mem_append.mp hmem with hbefore | hafter
    · have hrefused := hskipped other hbefore
      rw [hotherSafe] at hrefused
      cases hrefused
    · rcases List.mem_cons.mp hafter with rfl | hlater
      · exact Or.inr ⟨rfl, le_rfl⟩
      · exact List.rel_of_pairwise_cons (List.pairwise_append.mp hsorted).2.1 hlater

end Assigned

section Requests

variable {operation : OpenCodeOperation} {request : OpenCodeRequest} {now : ℤ}
  {store : RelayStore} {response : OpenCodeResponse}

/-- What an accepted request of the bridge establishes. -/
structure WakeAccepted (operation : OpenCodeOperation) (request : OpenCodeRequest) (now : ℤ)
    (store : RelayStore) (response : OpenCodeResponse) (session : RelaySession)
    (held : Option OpenCodeWake) (next : OpenCodeWake) : Prop where
  bound : Bound store request now (operation = .enroll) session held
  runtime : session.runtime = .openCode
  sessionRef : session.sessionRef = request.sessionRef
  containerRef : session.containerRef = request.containerRef
  active : session.state = .active
  generation : request.scopeGeneration = store.scopeGeneration session.id
  operates : operateWake store operation request session held now = .ok next
  key : next.endpointId = request.endpointId
  wakes : (relayOpenCodeWake operation request now store).1.openCodeWakes =
    store.openCodeWakes.put next
  view : response.wake = next.view
  remembered : operation = .enroll ∨ operation = .poll →
    response.session.runtime = .openCode ∧ response.session.sessionRef = request.sessionRef ∧
      response.session.containerRef = request.containerRef ∧
      response.session.state = .recent ∧ response.session.destinationHealth = some .active
  endpoint : response.session.endpointId = request.endpointId ∧
    response.session.scopeGeneration = request.scopeGeneration

theorem relayOpenCodeWake_accepted
    (hok : (relayOpenCodeWake operation request now store).2 = .ok response) :
    ∃ session held next, WakeAccepted operation request now store response session held next := by
  rcases transaction_cases (relayOpenCodeWakeBody operation request now) store with
    ⟨after, result, hbody, htransaction⟩ | ⟨error, -, htransaction⟩
  · rw [relayOpenCodeWake, htransaction] at hok
    cases hok
    have hafter : (relayOpenCodeWake operation request now store).1 = after := by
      rw [relayOpenCodeWake, htransaction]
    simp only [relayOpenCodeWakeBody, bind_eq_ok, pure_eq_ok, Prod.mk.injEq] at hbody
    obtain ⟨⟨session, held⟩, hbinding, next, hoperates, rfl, rfl⟩ := hbody
    have hbound := openCodeBinding_eq_ok hbinding
    have hid : session.id = request.endpointId := Table.key_of_get hbound.session
    simp only [openCodeBinding, bind_eq_ok, orRaise_eq_ok, require_eq_ok, pure_eq_ok,
      Prod.mk.injEq] at hbinding
    obtain ⟨found, -, -, hscope, -, hactive, -, -, -, -, rfl, -⟩ := hbinding
    have hkey : next.endpointId = request.endpointId := by
      rcases operateWake_eq_ok (hbound.owned.imp_left of_decide_eq_true) hoperates with
        ⟨-, hnext, -⟩ | ⟨wake, hwake, hchange⟩
      · exact hnext.trans hid
      · exact hchange.endpointId.trans (Table.key_of_get (hbound.wake.trans hwake))
    refine ⟨found, held, next,
      { bound := hbound
        runtime := hscope.1
        sessionRef := hscope.2.1
        containerRef := hscope.2.2
        active := hactive.1
        generation := hactive.2
        operates := hoperates
        key := hkey
        wakes := ?_
        view := rfl
        remembered := fun htouches => ?_
        endpoint := ?_ }⟩
    · rw [hafter]
      split <;> rfl
    · have htouched : operation = .enroll ∨ operation = .poll := htouches
      simp only [if_pos htouched, relaySessionView, sessionView]
      have hopen : found.state ≠ .closed := by
        rw [hactive.1]
        exact nofun
      have hrecent : now - seconds relayRecentSeconds ≤ now := by
        simp [seconds, relayRecentSeconds]
      simp only [if_neg hopen, if_pos hrecent]
      exact ⟨hscope.1, hscope.2.1, hscope.2.2, trivial, congrArg some hactive.1⟩
    · have hgeneration : request.scopeGeneration = store.scopeGeneration found.id := hactive.2
      constructor
      · split <;> exact hid
      · split <;> exact hgeneration.symm
  · rw [relayOpenCodeWake, htransaction] at hok
    cases hok

variable {plugin : Plugin} {item : PluginItem} {endpoint : String × ℕ} {ownerId : String}
  {session : RelaySession} {held : Option OpenCodeWake} {next : OpenCodeWake} {wake : OpenCodeWake}

theorem WakeAccepted.remember
    (haccepted : WakeAccepted operation (plugin.base ownerId endpoint) now store response session held
      next) (htouches : operation = .enroll ∨ operation = .poll)
    (hknown : item.endpoint = some endpoint) :
    plugin.remember item response.session = some item := by
  obtain ⟨hruntime, href, hcontainer, hstate, hhealth⟩ := haccepted.remembered htouches
  obtain ⟨hendpoint, hgeneration⟩ := haccepted.endpoint
  have hsame : (response.session.endpointId, response.session.scopeGeneration) = endpoint :=
    Prod.ext hendpoint hgeneration
  unfold Plugin.remember
  rw [if_pos ⟨hruntime, href, hcontainer, hstate, hhealth⟩]
  simp only [hsame]
  rw [if_neg fun hother => hother.2 hknown, ← hknown]

theorem relayOpenCodeWake_refused {raised : RelayError}
    (herror : (relayOpenCodeWake operation request now store).2 = .error raised) :
    (relayOpenCodeWake operation request now store).1 = store := by
  rcases transaction_cases (relayOpenCodeWakeBody operation request now) store with
    ⟨after, result, -, htransaction⟩ | ⟨error, -, htransaction⟩
  · rw [relayOpenCodeWake, htransaction] at herror
    cases herror
  · rw [relayOpenCodeWake, htransaction]

theorem WakeAccepted.get
    (haccepted : WakeAccepted operation request now store response session held next) :
    (relayOpenCodeWake operation request now store).1.openCodeWakes.get request.endpointId =
      some next := by
  rw [haccepted.wakes, ← haccepted.key]
  exact Table.get_put_self _ next

/-- The wake has lost its delivery, or it is at the same attempt and has not become
live again. -/
def Onward (wake next : OpenCodeWake) : Prop :=
  next.deliveryId = none ∨ next.deliveryId = wake.deliveryId ∧
    next.generation = wake.generation ∧ (wake.terminal = true → next.terminal = true)

theorem Onward.refl (wake : OpenCodeWake) : Onward wake wake := Or.inr ⟨rfl, rfl, id⟩

theorem WakeAccepted.onward (hoperation : operation ≠ .poll)
    (haccepted : WakeAccepted operation request now store response session (some wake) next) :
    Onward wake next := by
  have hoperates := haccepted.operates
  unfold operateWake at hoperates
  cases operation with
  | enroll =>
    simp only [bind_eq_ok, pure_eq_ok] at hoperates
    obtain ⟨enrolled, henroll, rfl⟩ := hoperates
    rcases enrollWake_eq_ok henroll with ⟨hnone, -⟩ | ⟨found, hfound, -, htaken⟩
    · cases hnone
    · cases hfound
      rw [htaken]
      unfold OpenCodeWake.takenOver
      split
      · exact Or.inl rfl
      · exact Or.inr ⟨rfl, rfl, id⟩
  | poll => exact absurd rfl hoperation
  | admitted =>
    simp only [bind_eq_ok, orRaise_eq_ok, pure_eq_ok] at hoperates
    obtain ⟨found, hfound, rfl⟩ := hoperates
    cases hfound
    exact Or.inr ⟨rfl, rfl, id⟩
  | terminal =>
    simp only [bind_eq_ok, orRaise_eq_ok, require_eq_ok] at hoperates
    obtain ⟨found, hfound, -, -, hoperates⟩ := hoperates
    cases hfound
    split at hoperates
    · simp only [pure_eq_ok] at hoperates
      exact hoperates ▸ Onward.refl wake
    · simp only [pure_eq_ok] at hoperates
      exact hoperates ▸ Or.inr ⟨rfl, rfl, fun _ => rfl⟩
  | detach =>
    simp only [bind_eq_ok, orRaise_eq_ok, pure_eq_ok] at hoperates
    obtain ⟨found, hfound, rfl⟩ := hoperates
    cases hfound
    exact Or.inr ⟨rfl, rfl, id⟩

theorem wakeRequest_onward (hoperation : operation ≠ .poll)
    (call : PluginCall) (hget : store.openCodeWakes.get request.endpointId = some wake) :
    ∃ next, (wakeRequest operation request call store).1.openCodeWakes.get request.endpointId =
      some next ∧ Onward wake next := by
  have hserved : ∃ next, (relayOpenCodeWake operation request call.now store).1.openCodeWakes.get
      request.endpointId = some next ∧ Onward wake next := by
    cases hanswer : (relayOpenCodeWake operation request call.now store).2 with
    | error raised =>
      rw [relayOpenCodeWake_refused hanswer]
      exact ⟨wake, hget, Onward.refl wake⟩
    | ok response =>
      obtain ⟨session, held, next, haccepted⟩ := relayOpenCodeWake_accepted hanswer
      obtain rfl : held = some wake := haccepted.bound.wake.symm.trans hget
      exact ⟨next, haccepted.get, haccepted.onward hoperation⟩
  unfold wakeRequest
  cases call.link with
  | unsent => exact ⟨wake, hget, Onward.refl wake⟩
  | lost => exact hserved
  | answered => exact hserved

theorem not_stale (hterminal : operation = .terminal)
    (hget : store.openCodeWakes.get request.endpointId = some wake)
    (hmatches : wake.matchesSnapshot request) :
    (relayOpenCodeWake operation request now store).2 ≠
      .error (.conflict "OpenCode native wake snapshot is stale") := by
  subst hterminal
  intro hstale
  rcases transaction_cases (relayOpenCodeWakeBody .terminal request now) store with
    ⟨after, result, -, htransaction⟩ | ⟨error, hbody, htransaction⟩
  · rw [relayOpenCodeWake, htransaction] at hstale
    cases hstale
  · rw [relayOpenCodeWake, htransaction] at hstale
    cases hstale
    simp only [relayOpenCodeWakeBody, openCodeBinding, operateWake, bind_eq_error,
      orRaise_eq_error, require_eq_error, pure_ne_error, bind_eq_ok, orRaise_eq_ok, require_eq_ok,
      pure_eq_ok, reduceCtorEq, RelayError.conflict.injEq, String.reduceEq, and_false, exists_false,
      or_false, false_or] at hbody
    rcases hbody with ⟨session, hsession, -, -, -, -, -, -, hunmatched, -⟩ |
      ⟨-, -, found, -, -, -, hended⟩
    · have hid : session.id = request.endpointId := Table.key_of_get hsession
      rw [hid, hget] at hunmatched
      exact hunmatched (Or.inr hmatches)
    · split at hended <;> exact pure_ne_error hended

end Requests

section Acts

variable {host : Host} {plugin : Plugin} {world : NativeWorld} {endpoint : String × ℕ}
  {wake : OpenCodeWake}

def NativeWorld.row (world : NativeWorld) (endpoint : String × ℕ) : Option OpenCodeWake :=
  world.store.openCodeWakes.get endpoint.1

/-- The request that the next call of `runWake` makes to the service, if it makes one. -/
def Plugin.pending (plugin : Plugin) (item : PluginItem) :
    Option (OpenCodeOperation × OpenCodeRequest) :=
  match item.run, item.endpoint with
  | some (wake, .admitting), some endpoint =>
    some (.admitted, plugin.fields item.ownerId endpoint wake)
  | some (wake, .reporting terminalMessageId), some endpoint =>
    some (.terminal,
      { plugin.fields item.ownerId endpoint wake with
        terminalMessageId := some terminalMessageId })
  | _, _ => none

/-- The service accepts the request, or finds that it speaks of an earlier attempt. -/
def Taken (answer : Except RelayError OpenCodeResponse) : Prop :=
  (∃ response, answer = .ok response) ∨
    answer = .error (.conflict "OpenCode native wake snapshot is stale")

/-- The calls of the plugin in the act succeed. -/
def NativeAct.Succeeds (plugin : Plugin) (world : NativeWorld) : NativeAct → Prop
  | .poll calls => calls.owned = true ∧ calls.ownedAfter = true ∧ calls.poll.link = .answered ∧
      ∀ endpoint, world.item.endpoint = some endpoint → ∃ response,
        (relayOpenCodeWake .poll (plugin.base world.item.ownerId endpoint) calls.poll.now
          world.store).2 = .ok response
  | .advance owned call => owned = true ∧ call.link = .answered ∧
      ∀ operation request, plugin.pending world.item = some (operation, request) →
        Taken (relayOpenCodeWake operation request call.now world.store).2
  | .restore _ owned call => owned = true ∧ call.link = .answered
  | _ => True

theorem step_poll {calls : Plugin.PollCalls} (hknown : world.item.endpoint = some endpoint)
    (hsucceeds : (NativeAct.poll calls).Succeeds plugin world) :
    ∃ session held next response,
      WakeAccepted .poll (plugin.base world.item.ownerId endpoint) calls.poll.now world.store response
          session held next ∧
        world.step host plugin (.poll calls) =
          { store := (relayOpenCodeWake .poll (plugin.base world.item.ownerId endpoint)
              calls.poll.now world.store).1
            history := world.history
            item := plugin.startWake { world.item with wake := next.view } next.view } := by
  obtain ⟨howned, hafter, hanswered, haccepts⟩ := hsucceeds
  obtain ⟨response, hok⟩ := haccepts endpoint hknown
  obtain ⟨session, held, next, haccepted⟩ := relayOpenCodeWake_accepted hok
  refine ⟨session, held, next, response, haccepted, ?_⟩
  have hrequest : wakeRequest .poll (plugin.base world.item.ownerId endpoint) calls.poll
      world.store =
        ((relayOpenCodeWake .poll (plugin.base world.item.ownerId endpoint) calls.poll.now
          world.store).1, some (.ok response)) := by
    unfold wakeRequest
    simp only [hanswered]
    rw [hok]
  have hremember := haccepted.remember (Or.inr rfl) hknown
  simp only [NativeWorld.step, Plugin.poll, hknown, howned, if_true, hrequest, Plugin.acceptPoll,
    hafter, hremember, haccepted.view]

section

variable {request : OpenCodeRequest} {now : ℤ} {store : RelayStore} {response : OpenCodeResponse}
  {session : RelaySession} {next : OpenCodeWake}
  (haccepted : WakeAccepted .poll request now store response session (some wake) next)
include haccepted

theorem WakeAccepted.polled :
    next = assignOldest store session request now
      (settleTerminal store now { wake with ownerExpiresAt := now + seconds 15 }) := by
  have hoperates := haccepted.operates
  simp only [operateWake, bind_eq_ok, orRaise_eq_ok, pure_eq_ok] at hoperates
  obtain ⟨found, hfound, rfl⟩ := hoperates
  cases hfound
  rfl

theorem WakeAccepted.kept (hassigned : wake.deliveryId.isSome) (hterminal : wake.terminal = false) :
    next = { wake with ownerExpiresAt := now + seconds 15 } := by
  have hsettled : settleTerminal store now { wake with ownerExpiresAt := now + seconds 15 } =
      { wake with ownerExpiresAt := now + seconds 15 } := by
    simp [settleTerminal, hterminal]
  rw [haccepted.polled, hsettled]
  unfold assignOldest
  simp only
  rw [if_neg (by simpa [Option.isSome_iff_ne_none] using hassigned)]

end

theorem closeSession_onward {runtime : Runtime} {sessionRef containerRef endpointId : String}
    {now : ℤ} {store : RelayStore} (hget : store.openCodeWakes.get endpointId = some wake) :
    ∃ next, (relayCloseSession runtime sessionRef containerRef now store).1.openCodeWakes.get
      endpointId = some next ∧ Onward wake next := by
  refine @relayCloseSession_cases _ _
    (fun after => ∃ next, after.openCodeWakes.get endpointId = some next ∧ Onward wake next)
    runtime sessionRef containerRef ⟨wake, hget, Onward.refl wake⟩ fun row hrow => ?_
  simp only
  split
  · refine ⟨if endpointId = row.id then wake.closed now else wake, ?_, ?_⟩
    · change (store.openCodeWakes.modify row.id fun wake => wake.closed now).get endpointId = _
      rw [@Table.get_modify _ _ _ _ (fun wake => wake.closed now) store.openCodeWakes row.id
        (fun _ => rfl), hget, Option.map_some]
      split <;> rfl
    · split
      · exact Or.inl rfl
      · exact Onward.refl wake
  · exact ⟨wake, hget, Onward.refl wake⟩

theorem RelayOp.step_onward (op : RelayOp) (hvalid : op.Validated)
    (hpassive : ∀ operation request now, op ≠ .openCodeWake operation request now)
    {store : RelayStore} {endpointId : String}
    (hget : store.openCodeWakes.get endpointId = some wake) :
    ∃ next, (op.step host store).openCodeWakes.get endpointId = some next ∧ Onward wake next := by
  have hunchanged : ∀ after : RelayStore, after.openCodeWakes = store.openCodeWakes →
      ∃ next, after.openCodeWakes.get endpointId = some next ∧ Onward wake next :=
    fun after hsame => ⟨wake, by rw [hsame, hget], Onward.refl wake⟩
  cases op with
  | openCodeWake operation request now => exact absurd rfl (hpassive operation request now)
  | openCodeContext request maxChars now =>
    rcases context_cases host request maxChars now store with
      ⟨error, herror⟩ | ⟨response, -, heffect⟩
    · exact hunchanged _ (congrArg (·.1.openCodeWakes) herror)
    · cases heffect with
      | replayed _ _ _ hwakes => exact hunchanged _ hwakes
      | went _ _ _ _ heffect =>
        cases heffect with
        | unclaimed hwakes => exact ⟨wake, by rw [hwakes, hget], Onward.refl wake⟩
        | claimed _ hwakes =>
          rw [hwakes, hget, Option.map_some]
          split
          · exact ⟨_, rfl, Or.inr ⟨rfl, rfl, id⟩⟩
          · exact ⟨_, rfl, Onward.refl wake⟩
  | closeSession runtime sessionRef containerRef now => exact closeSession_onward hget
  | _ => exact hunchanged _ (RelayOp.step_openCodeWakes (by trivial))

variable (owned : Bool) (call : PluginCall)

section

variable (hknown : world.item.endpoint = some endpoint)
include hknown

theorem enroll_item :
    ∃ polled, (plugin.enroll owned call world).1.item = { world.item with wake := polled } := by
  have hremembered : ∀ response, (relayOpenCodeWake .enroll
      (plugin.base world.item.ownerId endpoint) call.now world.store).2 = .ok response →
        plugin.remembered world.item response.session = world.item := by
    intro response hok
    obtain ⟨session, held, next, haccepted⟩ := relayOpenCodeWake_accepted hok
    rw [Plugin.remembered, haccepted.remember (Or.inl rfl) hknown, Option.getD_some]
  unfold Plugin.enroll
  split
  · exact ⟨world.item.wake, rfl⟩
  · next known hfound =>
      obtain rfl := Option.eq_some_unique hfound hknown
      cases owned with
      | false => exact ⟨world.item.wake, rfl⟩
      | true =>
        simp only [if_true]
        unfold wakeRequest
        cases call.link with
        | unsent => exact ⟨world.item.wake, rfl⟩
        | lost => exact ⟨world.item.wake, rfl⟩
        | answered =>
          simp only
          generalize relayOpenCodeWake .enroll (plugin.base world.item.ownerId known) call.now
            world.store = outcome at hremembered
          obtain ⟨store, answer⟩ := outcome
          cases answer with
          | error raised => exact ⟨world.item.wake, rfl⟩
          | ok response =>
            simp only [hremembered response rfl]
            exact ⟨response.wake, rfl⟩

theorem enroll_onward
    (hrow : world.row endpoint = some wake) :
    ∃ next, (plugin.enroll owned call world).1.row endpoint = some next ∧ Onward wake next := by
  unfold Plugin.enroll
  simp only [hknown]
  cases owned with
  | false => exact ⟨wake, hrow, Onward.refl wake⟩
  | true =>
    have honward := @wakeRequest_onward .enroll (plugin.base world.item.ownerId endpoint)
      world.store wake nofun call hrow
    simp only [if_true]
    generalize wakeRequest .enroll (plugin.base world.item.ownerId endpoint) call
      world.store = outcome at honward
    obtain ⟨store, answer⟩ := outcome
    cases answer with
    | none => exact honward
    | some result => cases result <;> exact honward

theorem advance_onward
    (hrow : world.row endpoint = some wake) :
    ∃ next, (plugin.advance owned call world).row endpoint = some next ∧ Onward wake next := by
  have hsame : ∃ next, world.row endpoint = some next ∧ Onward wake next :=
    ⟨wake, hrow, Onward.refl wake⟩
  unfold Plugin.advance
  cases hrun : world.item.run with
  | none => exact hsame
  | some running =>
    obtain ⟨view, stage⟩ := running
    simp only [hknown]
    cases owned with
    | false => exact hsame
    | true =>
      simp only [if_true]
      cases stage with
      | reading =>
        simp only
        split
        · exact hsame
        · split <;> exact hsame
      | prompting => exact hsame
      | checking =>
        simp only
        split <;> exact hsame
      | admitting =>
        exact @wakeRequest_onward .admitted (plugin.fields world.item.ownerId endpoint view)
          world.store wake nofun call hrow
      | waiting => exact hsame
      | correlating =>
        simp only
        split <;> exact hsame
      | reporting terminalMessageId =>
        exact @wakeRequest_onward .terminal
          { plugin.fields world.item.ownerId endpoint view with
            terminalMessageId := some terminalMessageId } world.store wake nofun call hrow

end

end Acts

end Pallium.Relay
