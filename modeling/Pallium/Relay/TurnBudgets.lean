import Pallium.Relay.Projections

/-!
# The budgets of a turn

A turn claims deliveries in order, and their texts and the response keep to its budgets.
Only the first of them may be shown in part: then it does not fit in full, and what is
shown is the longest prefix that fits.
-/

namespace Pallium.Relay

open Pallium.Run Pallium.Transaction Pallium.Packing Pallium.Calendar
open Pallium.JsonText

section Eligible

variable {host : Host} {request : TurnRequest} {clock : ClaimClock} {now : ℤ}
  {store after : RelayStore} {change : RelayDelivery → RelayDelivery}

/-- Deliveries that are marked as expired were not open before. -/
theorem openDeliveries_of_expiring
    (hchange : ∀ delivery ∈ store.deliveries.rows, change delivery = delivery ∨
      store.due now delivery ∧ change delivery = delivery.markExpired)
    (hrows : after.deliveries.rows = store.deliveries.rows.map change)
    (hmessages : after.messages = store.messages) {wanted : RelayDelivery → Bool} :
    openDeliveries after now wanted = openDeliveries store now wanted := by
  unfold openDeliveries
  dsimp only
  congr 1
  rw [hrows, List.filterMap_map]
  refine List.filterMap_congr fun delivery hdelivery => ?_
  rw [Function.comp_apply, hmessages]
  rcases hchange delivery hdelivery with hsame | ⟨hdue, hexpired⟩
  · rw [hsame]
  · rw [hexpired]
    change (store.messages.get delivery.messageId).bind _ = _
    simp only [RelayStore.due, Bool.and_eq_true] at hdue
    obtain ⟨-, hany⟩ := hdue
    rw [Option.any_eq_true] at hany
    obtain ⟨message, hmessage, hpast⟩ := hany
    have hpast : message.expiresAt ≤ now := of_decide_eq_true hpast
    have hclosed : claimable now delivery.markExpired = false := rfl
    rw [hmessage, Option.bind_some, Option.bind_some, hclosed, Bool.and_false, Bool.false_and,
      if_neg Bool.false_ne_true, decide_eq_false (Int.not_lt.mpr hpast), Bool.and_false,
      if_neg Bool.false_ne_true]

theorem rows_updateAll_deliveries (table : Table RelayDelivery)
    (hid : ∀ delivery, (change delivery).id = delivery.id) :
    (table.updateAll change).rows = table.rows.map change :=
  List.map_congr_left fun delivery _ => if_pos (hid delivery)

theorem openDeliveries_sweepExpired (store : RelayStore) (now : ℤ)
    (wanted : RelayDelivery → Bool) :
    openDeliveries (store.sweepExpired now) now wanted = openDeliveries store now wanted := by
  have hrows : (store.sweepExpired now).deliveries.rows = store.deliveries.rows.map fun delivery =>
      if store.due now delivery then delivery.markExpired else delivery := by
    refine rows_updateAll_deliveries store.deliveries fun delivery => ?_
    split <;> rfl
  refine openDeliveries_of_expiring (fun delivery _ => ?_) hrows rfl
  by_cases hdue : store.due now delivery
  · exact Or.inr ⟨hdue, if_pos hdue⟩
  · exact Or.inl (if_neg hdue)

theorem openDeliveries_expireIfDue {delivery : RelayDelivery}
    (hget : store.deliveries.get delivery.id = some delivery) (wanted : RelayDelivery → Bool) :
    openDeliveries (expireIfDue store now delivery).1 now wanted =
      openDeliveries store now wanted := by
  unfold expireIfDue
  by_cases hdue : store.due now delivery
  · rw [if_pos hdue]
    have hrows : (store.modifyDelivery delivery.id RelayDelivery.markExpired).deliveries.rows =
        store.deliveries.rows.map fun row =>
          if row.id = delivery.id then row.markExpired else row := by
      refine rows_updateAll_deliveries store.deliveries fun row => ?_
      split <;> rfl
    refine openDeliveries_of_expiring (fun row hrow => ?_) hrows rfl
    by_cases hid : row.id = delivery.id
    · have hsame : store.deliveries.get delivery.id = some row := hid ▸ Table.get_of_mem hrow
      obtain rfl := Option.eq_some_unique hget hsame
      exact Or.inr ⟨hdue, if_pos rfl⟩
    · exact Or.inl (if_neg hid)
  · rw [if_neg hdue]

theorem openCodeContext_open {native : OpenCodeRequest} {wake : OpenCodeWake}
    {replay : Option TurnResponse}
    (hcontext : openCodeContext host request native now store = .ok (after, wake, replay))
    (wanted : RelayDelivery → Bool) :
    openDeliveries after now wanted = openDeliveries store now wanted := by
  unfold openCodeContext at hcontext
  simp only [bind_eq_ok, orRaise_eq_ok, require_eq_ok] at hcontext
  obtain ⟨-, -, deliveryId, -, binding, -, held, -, ⟨delivery, message⟩, hrow, hcontext⟩ := hcontext
  have hget := (RelayStore.deliveryWithMessage_eq_some.mp (Option.filter_eq_some_iff.mp hrow).1).1
  obtain rfl : delivery.id = deliveryId := Table.key_of_get hget
  have hopen := @openDeliveries_expireIfDue now store delivery hget wanted
  split at hcontext
  · simp only [pure_eq_ok, Prod.mk.injEq] at hcontext
    exact hcontext.1 ▸ hopen
  · simp only [pure_eq_ok, Prod.mk.injEq] at hcontext
    exact hcontext.1 ▸ hopen

/-- The session of an admitted turn has the scope of the request. -/
theorem admitted_scope {resolved middle : RelayStore} {registered : Option RelaySession}
    {generation : ℕ} {session : RelaySession} {view : SessionView}
    (hscope : resolveScope request store = .ok (resolved, registered, generation))
    (hadmitted : admitSession host request now registered generation resolved =
      .ok (middle, .admitted session view)) :
    session.containerRef = request.containerRef ∧ session.runtime = request.runtime ∧
      session.sessionRef = request.sessionRef := by
  have hregistered : ∀ found, registered = some found → found.containerRef = request.containerRef ∧
      found.runtime = request.runtime ∧ found.sessionRef = request.sessionRef := by
    intro found hfound
    cases resolveScope_eq_ok hscope with
    | direct hprevious => exact (RelayStore.get_of_relaySession hfound).2
    | confirmed _ _ hstored =>
      cases hfound
      exact (RelayStore.get_of_relaySession hstored).2
    | replayed _ _ _ hstored =>
      cases hfound
      exact (RelayStore.get_of_relaySession hstored).2
    | moved _ _ _ _ hsource =>
      cases hfound
      exact ⟨rfl, (RelayStore.get_of_relaySession hsource).2.2⟩
  unfold admitSession at hadmitted
  cases registered with
  | none =>
    simp only at hadmitted
    split at hadmitted
    · simp only [bind_eq_ok, orRaise_eq_ok, pure_eq_ok, Prod.mk.injEq, Admission.admitted.injEq]
        at hadmitted
      obtain ⟨sessions, -, -, rfl, -⟩ := hadmitted
      exact ⟨rfl, rfl, rfl⟩
    · cases hadmitted
  | some found =>
    have hfound := hregistered found rfl
    simp only at hadmitted
    split at hadmitted
    · simp only [pure_eq_ok, Prod.mk.injEq, Admission.admitted.injEq] at hadmitted
      obtain ⟨-, rfl, -⟩ := hadmitted
      exact hfound
    · split at hadmitted
      · simp only [pure_eq_ok, Prod.mk.injEq, Admission.admitted.injEq] at hadmitted
        obtain ⟨-, rfl, -⟩ := hadmitted
        exact hfound
      · cases hadmitted

theorem length_filter_not_mem {α β : Type*} [DecidableEq β] (name : α → β) {rows part : List α}
    (hnodup : (rows.map name).Nodup) (hsublist : part.Sublist rows) :
    (rows.filter fun row => decide (name row ∉ part.map name)).length + part.length =
      rows.length := by
  have hrows : rows.Nodup := hnodup.of_map name
  have hperm : ((rows.filter fun row => decide (name row ∉ part.map name)) ++ part).Perm rows := by
    refine (List.perm_ext_iff_of_nodup ?_ hrows).mpr fun row => ?_
    · refine List.nodup_append'.mpr ⟨hrows.filter _, hrows.sublist hsublist,
        fun row hother hpart => ?_⟩
      exact of_decide_eq_true (List.mem_filter.mp hother).2 (List.mem_map_of_mem hpart)
    · rw [List.mem_append, List.mem_filter, decide_eq_true_eq]
      refine ⟨fun hmem => hmem.elim And.left (hsublist.subset ·), fun hrow => ?_⟩
      by_cases hname : name row ∈ part.map name
      · obtain ⟨other, hother, hsame⟩ := List.mem_map.mp hname
        exact Or.inr (List.inj_on_of_nodup_map hnodup (hsublist.subset hother) hrow hsame ▸ hother)
      · exact Or.inl ⟨hrow, hname⟩
  rw [← List.length_append, hperm.length_eq]

end Eligible

section Turns

variable {host : Host} {request : TurnRequest} {clock : ClaimClock} {now : ℤ}
  {store after : RelayStore} {response : TurnResponse}

variable {context : TurnContext} {wake : Option OpenCodeWake} {delivery : RelayDelivery}

theorem claimedView_eq {chosen : Selected} (hshown : chosen.Shown context) :
    claimedView context chosen = { chosen.view with note := none } := by
  obtain ⟨stop, hstop, hview⟩ := hshown
  have hpayload : payloadView chosen.message.payload 0
      (if chosen.view.payload.contentTruncated then some chosen.view.payload.payload.length
        else none) = prefixView chosen.message.payload stop := by
    rw [hview]
    exact payloadView_claimed hstop
  rw [claimedView, deliveryView, hpayload, hview]
  rfl

theorem length_json_without_note (view : DeliveryView) :
    ({ view with note := none } : DeliveryView).json.length ≤ view.json.length := by
  refine (congrArg (fun fields => (object fields).length) (List.append_nil _)).trans_le ?_
  exact length_object_append _ _

theorem length_response_claimed {selected : List Selected}
    (hshown : ∀ chosen ∈ selected, chosen.Shown context) :
    (context.response (selected.map (claimedView context))).json.length ≤
      (context.response (selected.map Selected.view)).json.length := by
  refine length_response_le context ?_
  rw [List.forall₂_map_left_iff, List.forall₂_map_right_iff, List.forall₂_same]
  intro chosen hchosen
  rw [claimedView_eq (hshown chosen hchosen)]
  exact length_json_without_note chosen.view

/-- The deliveries that a turn may claim, and what it claims of them and returns. -/
structure TurnBudgets (host : Host) (request : TurnRequest) (now : ℤ) (store after : RelayStore)
    (response : TurnResponse) (context : TurnContext) (selected : List Selected) : Prop where
  called : context.host = host ∧ context.request = request ∧ context.current = now
  scope : context.session.containerRef = request.containerRef ∧
    context.session.runtime = request.runtime ∧ context.session.sessionRef = request.sessionRef
  eligible : (selected.map fun chosen => (chosen.delivery, chosen.message)).Sublist
    (eligibleFor context.session now store)
  claimed : ∀ chosen ∈ selected, after.deliveries.get chosen.delivery.id =
    some (chosen.delivery.claim chosen.token now context.leaseExpiresAt
      (context.claimGeneration chosen.delivery))
  unclaimed : ∀ deliveryId delivery, after.deliveries.get deliveryId = some delivery →
    delivery.state = .claimed → (∀ chosen ∈ selected, chosen.delivery.id ≠ deliveryId) →
    store.deliveries.get deliveryId = some delivery
  returned : response = context.response (selected.map (claimedView context))
  views : ∀ chosen ∈ selected, claimedView context chosen = { chosen.view with note := none }
  chars : request.maxChars ≠ 0 → joinedSize Selected.chars 2 selected ≤ request.maxChars
  json : selected ≠ [] → request.maxResponseChars ≠ 0 →
    response.json.length ≤ request.maxResponseChars
  count : request.maxMessages ≠ 0 → selected.length ≤ request.maxMessages
  order : (selected.map fun chosen => (chosen.delivery, chosen.message)).Pairwise deliveryOrder
  first : ∀ chosen ∈ selected.head?, chosen.Whole context ∨ chosen.Longest context
  others : ∀ chosen ∈ selected.tail, chosen.Whole context
  remaining : response.remainingCount =
    ((eligibleFor context.session now store).filter fun row =>
      decide (row.1.id ∉ selected.map fun chosen => chosen.delivery.id)).length

/-- A turn that claims nothing: it has no active session to claim for, or its OpenCode wake
has claimed or ended before. -/
structure TurnUnclaimed (request : TurnRequest) (store after : RelayStore)
    (response : TurnResponse) : Prop where
  unclaimed : ∀ deliveryId delivery, after.deliveries.get deliveryId = some delivery →
    delivery.state = .claimed → store.deliveries.get deliveryId = some delivery
  remaining : response.remainingCount = 0
  answered : response.deliveries = [] ∨ request.openCodeWake.isSome

theorem Sweeps.get_of_claimed (hsweeps : Sweeps now store after) {deliveryId : String}
    (hget : after.deliveries.get deliveryId = some delivery)
    (hclaimed : delivery.state = .claimed) :
    store.deliveries.get deliveryId = some delivery :=
  hsweeps.get_of_live hget fun hexpired => by cases hclaimed.symm.trans hexpired

theorem budgeted_selectEligible (context : TurnContext) (store : RelayStore) :
    (selectEligible context store).Budgeted context :=
  budgeted_selectDeliveries
    ⟨⟨(joinedSize_nil Selected.chars 2).symm, fun _ => Nat.zero_le _,
      List.forall_mem_nil _⟩, fun hsome => absurd rfl hsome,
      fun _ hchosen => absurd hchosen (Option.not_mem_none _),
      List.forall_mem_nil _⟩ _

theorem get_claimSelected_of_mem {chosen : Selected}
    (hchosen : chosen ∈ (selectEligible context store).selected) :
    (claimSelected context wake (selectEligible context store) store).deliveries.get
        chosen.delivery.id =
      some (chosen.delivery.claim chosen.token context.current context.leaseExpiresAt
        (context.claimGeneration chosen.delivery)) := by
  obtain ⟨hmeasured, hnodup⟩ := measured_selectEligible context store
  have hpart := (selectEligible_part context store).subset (List.mem_map_of_mem hchosen)
  obtain ⟨hget, -⟩ := mem_openDeliveries hpart
  have hfound : (selectEligible context store).selected.find?
      (fun other => other.delivery.id == chosen.delivery.id) = some chosen := by
    cases hsearch : (selectEligible context store).selected.find?
        fun other => other.delivery.id == chosen.delivery.id with
    | none =>
      exact absurd (beq_self_eq_true _) (List.find?_eq_none.mp hsearch chosen hchosen)
    | some other =>
      have hid := List.find?_some hsearch
      exact congrArg some (List.inj_on_of_nodup_map hnodup (List.mem_of_find?_eq_some hsearch)
        hchosen (beq_iff_eq.mp hid))
  rw [get_claimSelected, hget, Option.map_some, claimIfSelected, hfound]

theorem get_of_claimSelected {selection : Selection} {deliveryId : String}
    (hget : (claimSelected context wake selection store).deliveries.get deliveryId =
      some delivery) (hother : ∀ chosen ∈ selection.selected, chosen.delivery.id ≠ deliveryId) :
    store.deliveries.get deliveryId = some delivery := by
  rw [get_claimSelected] at hget
  obtain ⟨row, hrow, rfl⟩ := Option.map_eq_some_iff.mp hget
  have hid : row.id = deliveryId := Table.key_of_get hrow
  have hnone : selection.selected.find? (fun chosen => chosen.delivery.id == row.id) = none :=
    List.find?_eq_none.mpr fun chosen hchosen hsame =>
      hother chosen hchosen ((beq_iff_eq.mp hsame).trans hid)
  rw [claimIfSelected, hnone]
  exact hrow

theorem claimEligible_budgets {session : RelaySession} {view : SessionView}
    (hscope : session.containerRef = request.containerRef ∧ session.runtime = request.runtime ∧
      session.sessionRef = request.sessionRef)
    (hclaims : claimEligible host request clock now wake session view store =
      .ok (after, response)) :
    ∃ context selected, TurnBudgets host request now store after response context selected := by
  have hsweeps : Sweeps now store (store.sweepExpired now) := sweeps_sweepExpired store
  have hopen : eligibleFor session now (store.sweepExpired now) = eligibleFor session now store :=
    openDeliveries_sweepExpired store now _
  unfold claimEligible at hclaims
  dsimp only at hclaims
  generalize hcontext : turnContext host request now wake session view (store.sweepExpired now) =
    context at hclaims
  have hcount : context.eligibleCount = (eligibleFor session now store).length := by
    rw [← hopen, ← hcontext]
    rfl
  have hsession : context.session = session := by rw [← hcontext]; rfl
  have hcalled : context.host = host ∧ context.request = request ∧ context.current = now := by
    rw [← hcontext]
    exact ⟨rfl, rfl, rfl⟩
  split at hclaims
  · simp only [bind_eq_ok, pure_eq_ok, Prod.mk.injEq] at hclaims
    obtain ⟨-, -, rfl, rfl⟩ := hclaims
    refine ⟨context, [], ?_⟩
    constructor
    · exact hcalled
    · exact hsession ▸ hscope
    · exact List.nil_sublist _
    · exact List.forall_mem_nil _
    · exact fun _ _ hget hclaimed _ => hsweeps.get_of_claimed hget hclaimed
    · rfl
    · exact List.forall_mem_nil _
    · exact fun _ => (joinedSize_nil Selected.chars 2).le.trans (Nat.zero_le _)
    · exact fun hsome => absurd rfl hsome
    · exact fun _ => Nat.zero_le _
    · exact List.Pairwise.nil
    · exact fun _ hchosen => absurd hchosen (Option.not_mem_none _)
    · exact List.forall_mem_nil _
    · have hall : (eligibleFor context.session now store).filter
          (fun row => decide (row.1.id ∉ [].map fun chosen : Selected => chosen.delivery.id)) =
            eligibleFor context.session now store :=
        List.filter_eq_self.mpr fun row _ => decide_eq_true List.not_mem_nil
      rw [hall, hsession]
      change (context.eligibleCount : ℤ) - ((0 : ℕ) : ℤ) = _
      rw [hcount, Int.ofNat_zero, sub_zero]
  · simp only [bind_eq_ok, pure_eq_ok, Prod.mk.injEq] at hclaims
    obtain ⟨-, -, rfl, rfl⟩ := hclaims
    have hbudgeted := budgeted_selectEligible context (store.sweepExpired now)
    have hshown : ∀ chosen ∈ (selectEligible context (store.sweepExpired now)).selected,
        chosen.Shown context := by
      intro chosen hchosen
      cases hselected : (selectEligible context (store.sweepExpired now)).selected with
      | nil =>
        rw [hselected] at hchosen
        exact absurd hchosen List.not_mem_nil
      | cons head tail =>
        rw [hselected] at hchosen
        have hfirst := hbudgeted.first head (by rw [hselected]; rfl)
        have hothers := hbudgeted.others
        rw [hselected] at hothers
        rcases List.mem_cons.mp hchosen with rfl | hlater
        · exact hfirst.elim Selected.Whole.shown Selected.Longest.shown
        · exact (hothers chosen hlater).shown
    have hpart := selectEligible_part context (store.sweepExpired now)
    rw [hsession, hcalled.2.2, hopen] at hpart
    refine ⟨context, (selectEligible context (store.sweepExpired now)).selected, ?_⟩
    constructor
    · exact hcalled
    · exact hsession ▸ hscope
    · rw [hsession]
      exact hpart
    · intro chosen hchosen
      have hget := @get_claimSelected_of_mem (store.sweepExpired now) context wake chosen hchosen
      rw [hcalled.2.2] at hget
      exact hget
    · intro deliveryId delivery hget hclaimed hother
      exact hsweeps.get_of_claimed (get_of_claimSelected hget hother) hclaimed
    · rfl
    · exact fun chosen hchosen => claimedView_eq (hshown chosen hchosen)
    · intro hlimited
      rw [← hbudgeted.measured.used, ← hcalled.2.1]
      exact hbudgeted.measured.fits (hcalled.2.1.symm ▸ hlimited)
    · intro hsome hlimited
      have hfits := hbudgeted.response hsome (hcalled.2.1.symm ▸ hlimited)
      rw [hcalled.2.1] at hfits
      exact (length_response_claimed hshown).trans hfits
    · intro hlimited
      rw [← hcalled.2.1] at hlimited ⊢
      exact @length_selectDeliveries context ⟨[], 0, _⟩ hlimited (Nat.pos_of_ne_zero hlimited) _
    · exact (pairwise_openDeliveries store now _).sublist hpart
    · exact hbudgeted.first
    · exact hbudgeted.others
    · have hnodup := nodup_openDeliveries store now fun delivery =>
        delivery.recipientEndpointId == some session.id
      have hlength := length_filter_not_mem (fun row : RelayDelivery × RelayMessage => row.1.id)
        hnodup hpart
      rw [List.map_map, List.length_map] at hlength
      rw [hsession]
      change (context.eligibleCount : ℤ) - (List.length (List.map _ _) : ℤ) = _
      rw [hcount, List.length_map, eq_comm, eq_sub_iff_add_eq]
      exact_mod_cast hlength

/-- What the turn may claim does not change before it selects. -/
theorem TurnBudgets.of_open {middle : RelayStore} {selected : List Selected}
    (hopen : ∀ wanted, openDeliveries middle now wanted = openDeliveries store now wanted)
    (hclaimed : ∀ deliveryId delivery, middle.deliveries.get deliveryId = some delivery →
      delivery.state = .claimed → store.deliveries.get deliveryId = some delivery)
    (hbudgets : TurnBudgets host request now middle after response context selected) :
    TurnBudgets host request now store after response context selected := by
  have hsame : eligibleFor context.session now middle = eligibleFor context.session now store :=
    hopen _
  exact
    { called := hbudgets.called
      scope := hbudgets.scope
      eligible := hsame ▸ hbudgets.eligible
      claimed := hbudgets.claimed
      unclaimed := fun deliveryId delivery hget hstate hother =>
        hclaimed deliveryId delivery (hbudgets.unclaimed deliveryId delivery hget hstate hother)
          hstate
      returned := hbudgets.returned
      views := hbudgets.views
      chars := hbudgets.chars
      json := hbudgets.json
      count := hbudgets.count
      order := hbudgets.order
      first := hbudgets.first
      others := hbudgets.others
      remaining := hsame ▸ hbudgets.remaining }

theorem turnInScope_budgets
    (hturn : turnInScope host request clock now wake store = .ok (after, response)) :
    TurnUnclaimed request store after response ∨
      ∃ context selected, TurnBudgets host request now store after response context selected := by
  unfold turnInScope at hturn
  simp only [bind_eq_ok] at hturn
  obtain ⟨⟨resolved, registered, generation⟩, hscope, ⟨middle, admission⟩, hadmitted, hturn⟩ :=
    hturn
  have hquiet := (resolveScope_quiet hscope).trans (admitSession_quiet hadmitted)
  cases admission with
  | refused view =>
    simp only [pure_eq_ok, Prod.mk.injEq] at hturn
    obtain ⟨rfl, rfl⟩ := hturn
    exact Or.inl ⟨fun _ _ hget _ => hquiet.deliveries ▸ hget, rfl, Or.inl rfl⟩
  | admitted session view =>
    obtain ⟨context, selected, hbudgets⟩ :=
      claimEligible_budgets (admitted_scope hscope hadmitted) hturn
    refine Or.inr ⟨context, selected, hbudgets.of_open (fun wanted => ?_) fun _ _ hget _ => ?_⟩
    · rw [openDeliveries, openDeliveries, hquiet.deliveries, hquiet.messages]
    · exact hquiet.deliveries ▸ hget

theorem openCodeContext_remaining {native : OpenCodeRequest} {wake : OpenCodeWake}
    (hcontext : openCodeContext host request native now store = .ok (after, wake, some response)) :
    response.remainingCount = 0 := by
  unfold openCodeContext at hcontext
  simp only [bind_eq_ok, orRaise_eq_ok, require_eq_ok] at hcontext
  obtain ⟨-, -, deliveryId, -, binding, -, held, -, row, -, hcontext⟩ := hcontext
  split at hcontext
  · simp only [pure_eq_ok, Prod.mk.injEq, Option.some.injEq] at hcontext
    obtain ⟨-, -, rfl⟩ := hcontext
    rfl
  · simp only [pure_eq_ok, Prod.mk.injEq, reduceCtorEq, and_false] at hcontext

end Turns

section Example

variable {payload : String}

theorem length_append_le {first second : String} {one two : ℕ} (hfirst : first.length ≤ one)
    (hsecond : second.length ≤ two) : (first ++ second).length ≤ one + two := by
  rw [String.length_append]
  exact Nat.add_le_add hfirst hsecond

theorem length_response_singleton (context : TurnContext) (view larger : DeliveryView) :
    (context.response [view]).json.length + larger.json.length =
      (context.response [larger]).json.length + view.json.length := by
  simp only [TurnResponse.json, TurnContext.response, length_object, List.map_cons, List.map_nil,
    List.length_singleton, joinedSize, List.map_append, List.sum_append, List.sum_cons,
    List.sum_nil, fieldSize, String.length_append, length_array]
  omega

theorem length_redeliveryGuidance : redeliveryGuidance.length ≤ 100 + 100 + 100 := by
  unfold redeliveryGuidance
  refine length_append_le (length_append_le ?_ ?_) ?_
  · decide +kernel
  · decide +kernel
  · decide +kernel

def PayloadView.fields (view : PayloadView) : List (String × String) :=
  [("payload", text view.payload), ("payload_offset", integer view.payloadOffset),
    ("payload_total_chars", integer view.payloadTotalChars),
    ("content_truncated", boolean view.contentTruncated),
    ("next_offset", nullable (fun offset : ℕ => integer offset) view.nextOffset)]

def PayloadView.size (view : PayloadView) : ℕ :=
  (view.fields.map fun field => fieldSize field + 1).sum

def AttemptNote.fields (note : AttemptNote) : List (String × String) :=
  [("claim_attempt", nullable (fun attempt : ℕ => integer attempt) note.claimAttempt),
    ("possible_redelivery", nullable boolean note.possibleRedelivery),
    ("redelivery_guidance", text redeliveryGuidance)]

def AttemptNote.size (note : AttemptNote) : ℕ :=
  (note.fields.map fun field => fieldSize field + 1).sum

variable (view : DeliveryView) (count : ℕ)

theorem exists_json_fields : ∃ first before after,
    ∀ payload : PayloadView,
      ({ view with payload := payload, note := none } : DeliveryView).json =
        object (first :: before ++ payload.fields ++ after ++ []) ∧
      ∀ note : AttemptNote,
        ({ view with payload := payload, note := some note } : DeliveryView).json =
          object (first :: before ++ payload.fields ++ after ++ note.fields) := by
  refine ⟨("delivery_id", text view.deliveryId),
    [("message_id", text view.messageId),
      ("state", text view.state.name),
      ("destination_health", nullable (fun state => text state.name) view.destinationHealth),
      ("claim_token", nullable text view.claimToken), ("receipt", nullable text view.receipt),
      ("recipient_runtime", text view.recipientRuntime.name),
      ("recipient_session_ref", text view.recipientSessionRef),
      ("recipient_endpoint_id", nullable text view.recipientEndpointId),
      ("recipient_container_ref", nullable text view.recipientContainerRef),
      ("sender_runtime", text view.senderRuntime.name),
      ("sender_session_ref", text view.senderSessionRef),
      ("sender_endpoint_id", nullable text view.senderEndpointId),
      ("recipient", text view.recipient)],
    [("redacted", boolean view.redacted), ("in_reply_to", nullable text view.inReplyTo),
      ("created_at", text view.createdAt), ("expires_at", nullable text view.expiresAt),
      ("claimed_at", nullable text view.claimedAt),
      ("lease_expires_at", nullable text view.leaseExpiresAt),
      ("delivered_at", nullable text view.deliveredAt), ("attempts", integer view.attempts)],
    fun payload => ⟨?_, fun note => ?_⟩⟩
  · simp only [DeliveryView.json, PayloadView.fields, List.cons_append, List.nil_append]
  · simp only [DeliveryView.json, PayloadView.fields, AttemptNote.fields, List.cons_append,
      List.nil_append]

theorem length_json_exchange (payload larger : PayloadView) (note : AttemptNote) :
    ({ view with payload := payload, note := some note } : DeliveryView).json.length + larger.size =
      ({ view with payload := larger, note := none } : DeliveryView).json.length +
        (payload.size + note.size) := by
  obtain ⟨first, before, after, hjson⟩ := exists_json_fields view
  rw [(hjson payload).2 note, (hjson larger).1]
  exact length_object_exchange first before payload.fields larger.fields after note.fields

theorem length_first_le {note : AttemptNote} (hlong : 1 < payload.length)
    (hnote : note.size + 13 ≤ (text payload).length) :
    ({ view with payload := prefixView payload 1, note := some note } : DeliveryView).json.length ≤
      ({ view with payload := prefixView payload payload.length, note := none } :
        DeliveryView).json.length := by
  have hexchange := length_json_exchange view (prefixView payload 1)
    (prefixView payload payload.length) note
  have hshort : (text (prefixView payload 1).payload).length ≤ 8 := by
    have hone := length_prefixView hlong.le
    have hbound := length_text_le (prefixView payload 1).payload
    omega
  have hnext : (prefixView payload 1).nextOffset = some 1 := if_pos hlong
  have htruncated : (prefixView payload 1).contentTruncated = true := decide_eq_true hlong
  have hall : (prefixView payload payload.length).payload = payload :=
    Text.take_of_length_le le_rfl
  have hrest : List.Forall₂ FieldLe (prefixView payload 1).fields.tail
      (prefixView payload payload.length).fields.tail := by
    have hwhole : (prefixView payload payload.length).contentTruncated = false :=
      decide_eq_false (Nat.lt_irrefl _)
    have hlast : (prefixView payload payload.length).nextOffset = none := if_neg (Nat.lt_irrefl _)
    refine .cons (.refl _) (.cons (.refl _) (.cons ⟨rfl, ?_⟩ (.cons ⟨rfl, ?_⟩ .nil)))
    · rw [htruncated, hwhole]
      exact Nat.le_succ 4
    · rw [hnext, hlast]
      exact Nat.le_add_left 1 3
  have hsums := sum_le_of_forall₂ (hrest.imp fun field large hle =>
    Nat.add_le_add_right (fieldSize_le hle) 1)
  have hsize : (prefixView payload 1).size =
      fieldSize ("payload", text (prefixView payload 1).payload) + 1 +
        ((prefixView payload 1).fields.tail.map fun field => fieldSize field + 1).sum :=
    List.sum_cons
  have hlarger : (prefixView payload payload.length).size =
      fieldSize ("payload", text (prefixView payload payload.length).payload) + 1 +
        ((prefixView payload payload.length).fields.tail.map fun field =>
          fieldSize field + 1).sum :=
    List.sum_cons
  rw [length_field] at hsize
  rw [length_field, hall] at hlarger
  omega

theorem length_json_note (note : AttemptNote) :
    ({ view with note := none } : DeliveryView).json.length <
      ({ view with note := some note } : DeliveryView).json.length := by
  have hexchange := length_json_exchange view view.payload view.payload note
  have hpositive : 0 < note.size := by
    obtain ⟨field, rest, hfields⟩ : ∃ field rest, note.fields = field :: rest := ⟨_, _, rfl⟩
    rw [AttemptNote.size, hfields, List.map_cons, List.sum_cons]
    omega
  have hsame : ({ view with payload := view.payload, note := none } : DeliveryView) =
    { view with note := none } := rfl
  have hother : ({ view with payload := view.payload, note := some note } : DeliveryView) =
    { view with note := some note } := rfl
  rw [hsame, hother] at hexchange
  omega

def inboxRecipient : RelaySession where
  id := "relay-session-1"
  runtime := .claudeCode
  sessionRef := "recipient"
  containerRef := "repo:a"
  title := none
  aliasName := none
  state := .active
  firstSeenAt := 0
  lastSeenAt := 0
  closedAt := none

def inboxMessage (payload : String) : RelayMessage where
  id := "relay-message-1"
  senderRuntime := .codex
  senderSessionRef := "sender"
  senderEndpointId := none
  recipientSelector := "relay-session-1"
  containerRef := "repo:a"
  payload := payload
  redacted := false
  inReplyTo := none
  createdAt := 0
  expiresAt := 3600000000

def inboxDelivery : RelayDelivery := .fresh "relay-delivery-1" "relay-message-1" inboxRecipient

/-- One message waits for its recipient. -/
def inbox (payload : String) : RelayStore :=
  { RelayStore.empty with
    sessions := ⟨[inboxRecipient], List.nodup_singleton _⟩
    messages := ⟨[inboxMessage payload], List.nodup_singleton _⟩
    deliveries := ⟨[inboxDelivery], List.nodup_singleton _⟩ }

/-- The turn of the recipient with a budget for the response only. -/
def inboxTurn (maxResponseChars : ℕ) : TurnRequest :=
  { exampleTurn .claudeCode "recipient" with maxResponseChars := maxResponseChars }

/-- The inbox when the session is refreshed. -/
def refreshedInbox (payload : String) : RelayStore :=
  { inbox payload with
    sessions := ⟨[{ inboxRecipient with lastSeenAt := 1000000 }], List.nodup_singleton _⟩ }

def inboxContext (payload : String) (maxResponseChars : ℕ) : TurnContext :=
  turnContext exampleHost (inboxTurn maxResponseChars) 1000000 none
    { inboxRecipient with lastSeenAt := 1000000 }
    (sessionView { SessionStamps.stored with lastSeen := isoformatUtc }
      { inboxRecipient with lastSeenAt := 1000000 } 1000000 relayRecentSeconds 0)
    (refreshedInbox payload)

theorem selectEligible_inbox (payload : String) (maxResponseChars : ℕ) :
    selectEligible (inboxContext payload maxResponseChars) (refreshedInbox payload) =
      examine (inboxContext payload maxResponseChars) ⟨[], 0, 0⟩
        (inboxDelivery, inboxMessage payload) := by
  have heligible : eligibleFor { inboxRecipient with lastSeenAt := 1000000 } 1000000
      (refreshedInbox payload) = [(inboxDelivery, inboxMessage payload)] := rfl
  unfold selectEligible
  change selectDeliveries _ _ ((eligibleFor { inboxRecipient with lastSeenAt := 1000000 } 1000000
      (refreshedInbox payload)).filter _) = _
  rw [heligible]
  change (if _ then _ else _) = _
  exact ite_self _

theorem safe_inbox (hpayload : payload ≠ "") (hsafe : renderSafe payload) :
    deliveryRenderSafe inboxDelivery (inboxMessage payload) := by
  have hrefs : ["relay-delivery-1", "relay-message-1", Runtime.codex.name, "sender",
      isoformat 0].all (fun value => value != "" && singleLineRenderSafe value) = true := by
    decide +kernel
  have hshown : (payload != "" && renderSafe payload) = true := by
    rw [hsafe, bne_iff_ne.mpr hpayload]
    rfl
  unfold deliveryRenderSafe
  rw [Bool.and_eq_true, Bool.and_eq_true]
  exact ⟨⟨hrefs, hshown⟩, rfl⟩

theorem relayTurn_inbox (payload : String) {maxResponseChars : ℕ}
    (hopen : maxResponseChars = 0 ∨
      ((inboxContext payload maxResponseChars).response []).json.length < maxResponseChars) :
    ∃ after, relayTurn exampleHost (inboxTurn maxResponseChars) exampleClock 1000000
        (inbox payload) =
      (after, .ok ((inboxContext payload maxResponseChars).response
        ((examine (inboxContext payload maxResponseChars) ⟨[], 0, 0⟩
          (inboxDelivery, inboxMessage payload)).selected.map
            (claimedView (inboxContext payload maxResponseChars))))) := by
  have hbudget : ¬ (maxResponseChars ≠ 0 ∧
      maxResponseChars ≤ ((inboxContext payload maxResponseChars).response []).json.length) := by
    omega
  have hclaims : turnInScope exampleHost (inboxTurn maxResponseChars) exampleClock 1000000 none
      (inbox payload) = .ok (claimSelected (inboxContext payload maxResponseChars) none
        (selectEligible (inboxContext payload maxResponseChars) (refreshedInbox payload))
          (refreshedInbox payload), (inboxContext payload maxResponseChars).response
            ((selectEligible (inboxContext payload maxResponseChars)
              (refreshedInbox payload)).selected.map
                (claimedView (inboxContext payload maxResponseChars)))) := if_neg hbudget
  rw [selectEligible_inbox] at hclaims
  have hbody : relayTurnBody exampleHost (inboxTurn maxResponseChars) exampleClock 1000000
      (inbox payload) = .ok (claimSelected (inboxContext payload maxResponseChars) none
        (examine (inboxContext payload maxResponseChars) ⟨[], 0, 0⟩
          (inboxDelivery, inboxMessage payload)) (refreshedInbox payload),
            (inboxContext payload maxResponseChars).response
              ((examine (inboxContext payload maxResponseChars) ⟨[], 0, 0⟩
                (inboxDelivery, inboxMessage payload)).selected.map
                  (claimedView (inboxContext payload maxResponseChars)))) := by
    change (turnInScope exampleHost (inboxTurn maxResponseChars) exampleClock 1000000 none
      (inbox payload) >>= fun outcome =>
        checkClaimExpiry (inboxTurn maxResponseChars) exampleClock 4 >>= fun _ => pure outcome) = _
    rw [hclaims]
    rfl
  exact ⟨_, transaction_of_ok hbody⟩

/-- The view of the only delivery up to a character. -/
def inboxView (payload : String) (stop : ℕ) : DeliveryView :=
  projectedView (inboxContext payload 0) inboxDelivery (inboxMessage payload)
    ("relay-claim-" ++ exampleHost.uuid4Hex 0) stop

/-- What a turn without a budget returns of the inbox. -/
def unlimitedResponse (payload : String) : TurnResponse :=
  (inboxContext payload 0).response [{ inboxView payload payload.length with note := none }]

theorem relayTurn_inbox_unlimited (hsafe : deliveryRenderSafe inboxDelivery (inboxMessage payload)) :
    ∃ after, relayTurn exampleHost (inboxTurn 0) exampleClock 1000000 (inbox payload) =
      (after, .ok (unlimitedResponse payload)) := by
  have hfits : ProjectionFits (inboxContext payload 0) [] 0 inboxDelivery (inboxMessage payload)
      ("relay-claim-" ++ exampleHost.uuid4Hex 0) payload.length :=
    ⟨fun hlimited => absurd rfl hlimited, fun hlimited => absurd rfl hlimited⟩
  have hselected := @examine_selects_whole (inboxContext payload 0) ⟨[], 0, 0⟩ inboxDelivery
    (inboxMessage payload) _ hsafe rfl hfits
  obtain ⟨after, hturn⟩ := relayTurn_inbox payload (Or.inl rfl)
  refine ⟨after, ?_⟩
  rw [hturn, hselected, List.nil_append, List.map_singleton, claimedView_eq ⟨_, le_rfl, rfl⟩]
  rfl

theorem length_response_nil_lt {context : TurnContext} (hcount : context.eligibleCount = 1)
    (hnative : context.native = none) (view : DeliveryView) :
    (context.response []).json.length < (context.response [view]).json.length := by
  have hexchange := length_object_exchange
    ("session", nullable SessionView.json (some context.sessionView)) []
    [("deliveries", array [])] [("deliveries", array [view.json])]
    [("has_more", boolean true), ("remaining_count", integer 1)] []
  have hempty : (context.response []).json = object
      [("session", nullable SessionView.json (some context.sessionView)),
        ("deliveries", array []), ("has_more", boolean true), ("remaining_count", integer 1)] := by
    simp only [TurnResponse.json, TurnContext.response, hcount, hnative]
    rfl
  have hone : (context.response [view]).json = object
      [("session", nullable SessionView.json (some context.sessionView)),
        ("deliveries", array [view.json]), ("has_more", boolean false),
        ("remaining_count", integer 0)] := by
    simp only [TurnResponse.json, TurnContext.response, hcount, hnative]
    rfl
  have hflags : (object
      [("session", nullable SessionView.json (some context.sessionView)),
        ("deliveries", array [view.json]), ("has_more", boolean true),
        ("remaining_count", integer 1)]).length ≤ (context.response [view]).json.length := by
    rw [hone]
    exact length_object_le (.cons (.refl _) (.cons (.refl _) (.cons ⟨rfl, Nat.le_succ 4⟩
      (.cons ⟨rfl, le_rfl⟩ .nil))))
  have hsmaller : fieldSize ("deliveries", array []) <
      fieldSize ("deliveries", array [view.json]) := by
    rw [length_field, length_field, length_array, length_array, joinedSize_singleton,
      joinedSize_nil]
    have hpositive : 0 < view.json.length := by
      rw [DeliveryView.json, length_object]
      omega
    omega
  simp only [List.cons_append, List.nil_append, List.map_cons, List.map_nil, List.sum_cons,
    List.sum_nil, Nat.add_zero] at hexchange
  rw [← hempty] at hexchange
  omega

theorem le_iff_of_add_eq {small large first second : ℕ} (hsum : small + second = large + first) :
    small ≤ large ↔ first ≤ second := by
  omega

/-- With the size of that response as its budget the turn shows only a prefix of a long
payload. -/
theorem relayTurn_inbox_truncated (hsafe : deliveryRenderSafe inboxDelivery (inboxMessage payload))
    (hlong : 1 < payload.length) (hsize : (attemptNote 1).size + 13 ≤ (text payload).length) :
    ∃ after response, relayTurn exampleHost (inboxTurn (unlimitedResponse payload).json.length)
        exampleClock 1000000 (inbox payload) = (after, .ok response) ∧
      response.deliveries.map (fun view => view.payload.contentTruncated) = [true] := by
  have hview := length_first_le (inboxView payload payload.length) hlong hsize
  have hnote := length_json_note (inboxView payload payload.length) (attemptNote 1)
  have hresponse : ∀ view : DeliveryView,
      ((inboxContext payload 0).response [view]).json.length ≤
          (unlimitedResponse payload).json.length ↔
        view.json.length ≤
          ({ inboxView payload payload.length with note := none } : DeliveryView).json.length := by
    intro view
    exact le_iff_of_add_eq (length_response_singleton (inboxContext payload 0) view
      { inboxView payload payload.length with note := none })
  have hempty : ((inboxContext payload 0).response []).json.length <
      (unlimitedResponse payload).json.length := length_response_nil_lt rfl rfl _
  generalize (unlimitedResponse payload).json.length = budget at hresponse hempty ⊢
  have hwhole : ¬ ProjectionFits (inboxContext payload budget) [] 0 inboxDelivery
      (inboxMessage payload) ("relay-claim-" ++ exampleHost.uuid4Hex 0) payload.length := by
    intro hfits
    have hlimited : ((inboxContext payload 0).response
      [inboxView payload payload.length]).json.length ≤ budget := hfits.response (Nat.ne_of_gt (Nat.zero_lt_of_lt hempty))
    have hwithin := (hresponse _).mp hlimited
    exact absurd hnote (Nat.not_lt.mpr hwithin)
  have hfits : ProjectionFits (inboxContext payload budget) [] 0 inboxDelivery
      (inboxMessage payload) ("relay-claim-" ++ exampleHost.uuid4Hex 0) 1 :=
    ⟨fun hlimited => absurd rfl hlimited, fun _ => (hresponse (inboxView payload 1)).mpr hview⟩
  obtain ⟨view, hselected, hlongest⟩ := @examine_selects (inboxContext payload budget) ⟨[], 0, 0⟩
    inboxDelivery (inboxMessage payload) _ rfl rfl hsafe hlong rfl hwhole hfits
  obtain ⟨after, hturn⟩ := @relayTurn_inbox payload budget (Or.inr hempty)
  refine ⟨after, _, hturn, ?_⟩
  rw [hselected, List.map_singleton, claimedView_eq hlongest.shown]
  obtain ⟨stop, -, hstop, hshown, -⟩ := hlongest
  change [view.payload.contentTruncated] = [true]
  rw [show view = _ from hshown]
  exact congrArg (fun truncated => [truncated]) (decide_eq_true hstop)

def repeated (count : ℕ) : String := String.ofList (List.replicate count 'x')

theorem length_repeated : (repeated count).length = count := by
  rw [repeated, String.length_ofList, List.length_replicate]

theorem renderSafe_repeated : renderSafe (repeated count) = true := by
  rw [renderSafe, repeated, String.toList_ofList, List.any_replicate]
  by_cases hnone : count = 0
  · rw [if_pos hnone]
    rfl
  · rw [if_neg hnone]
    decide

theorem length_text_repeated : (text (repeated count)).length = count + 2 := by
  have hplain : (List.replicate count 'x').flatMap escape = List.replicate count 'x' := by
    induction count with
    | zero => rfl
    | succ count ih =>
      rw [List.replicate_succ, List.flatMap_cons, ih]
      rfl
  rw [length_text, repeated, String.toList_ofList, hplain, List.length_replicate]

theorem size_attemptNote_le : (attemptNote 1).size ≤ 2500 := by
  have hguidance := length_text_le redeliveryGuidance
  have hlength := length_redeliveryGuidance
  have hattempt : fieldSize ("claim_attempt", "1") ≤ 100 := by decide +kernel
  have hpossible : fieldSize ("possible_redelivery", "false") ≤ 100 := by decide +kernel
  have hname : (text "redelivery_guidance").length ≤ 100 := by decide +kernel
  have hfields : (attemptNote 1).fields = [("claim_attempt", "1"),
      ("possible_redelivery", "false"), ("redelivery_guidance", text redeliveryGuidance)] := rfl
  have hfield := length_field "redelivery_guidance" (text redeliveryGuidance)
  rw [AttemptNote.size, hfields, List.map_cons, List.map_cons, List.map_cons, List.map_nil,
    List.sum_cons, List.sum_cons, List.sum_cons, List.sum_nil, hfield]
  generalize fieldSize ("claim_attempt", "1") = first at *
  generalize fieldSize ("possible_redelivery", "false") = second at *
  generalize (text "redelivery_guidance").length = third at *
  omega

end Example

end Pallium.Relay
