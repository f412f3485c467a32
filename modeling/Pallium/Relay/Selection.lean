import Pallium.Core.Packing
import Pallium.Relay.Evolution

/-!
# What a turn shows of a delivery

A turn shows the first delivery that it claims in full or by the longest prefix that
fits its budget, and further ones in full.  The texts of the claims, joined by empty
lines, never exceed the budget.
-/

namespace Pallium.Relay

open Pallium.Packing

section Payload

variable {payload : String} {stop : ℕ}

/-- The view of a payload up to a character. -/
def prefixView (payload : String) (stop : ℕ) : PayloadView where
  payload := Text.take stop payload
  payloadOffset := 0
  payloadTotalChars := payload.length
  contentTruncated := decide (stop < payload.length)
  nextOffset := if stop < payload.length then some stop else none

theorem prefixView_of_payloadView (payload : String) (stop : ℕ) :
    ({ payload := Text.drop 0 (Text.take stop payload)
       payloadOffset := 0
       payloadTotalChars := payload.length
       contentTruncated :=
        (0 != 0 || (if stop < payload.length then some stop else none).isSome)
       nextOffset := if stop < payload.length then some stop else none } : PayloadView) =
      prefixView payload stop := by
  have hdrop : ∀ text : String, Text.drop 0 text = text := fun text => String.ofList_toList
  rw [hdrop, prefixView]
  by_cases hlong : stop < payload.length
  · rw [if_pos hlong, decide_eq_true hlong]
    rfl
  · rw [if_neg hlong, decide_eq_false hlong]
    rfl

theorem payloadView_none (payload : String) :
    payloadView payload 0 none = prefixView payload payload.length :=
  prefixView_of_payloadView payload payload.length

theorem payloadView_some (payload : String) (chars : ℕ) :
    payloadView payload 0 (some chars) = prefixView payload (min payload.length chars) := by
  have hstop : min payload.length (0 + chars) = min payload.length chars := by rw [Nat.zero_add]
  rw [← prefixView_of_payloadView, ← hstop]
  simp only [payloadView]

theorem length_prefixView (hstop : stop ≤ payload.length) :
    (prefixView payload stop).payload.length = stop := by
  have htake : (prefixView payload stop).payload.toList = payload.toList.take stop :=
    String.toList_ofList
  rw [← String.length_toList, htake, List.length_take, String.length_toList,
    Nat.min_eq_left hstop]

theorem payloadView_length (hstop : stop ≤ payload.length) :
    payloadView payload 0 (some (prefixView payload stop).payload.length) =
      prefixView payload stop := by
  rw [length_prefixView hstop, payloadView_some, Nat.min_eq_right hstop]

theorem payloadView_claimed (hstop : stop ≤ payload.length) :
    payloadView payload 0
        (if (prefixView payload stop).contentTruncated then
          some (prefixView payload stop).payload.length
        else none) =
      prefixView payload stop := by
  by_cases hlong : stop < payload.length
  · have htruncated : (prefixView payload stop).contentTruncated = true := decide_eq_true hlong
    rw [if_pos htruncated]
    exact payloadView_length hstop
  · have hwhole : (prefixView payload stop).contentTruncated = false := decide_eq_false hlong
    rw [hwhole, if_neg Bool.false_ne_true, payloadView_none,
      Nat.le_antisymm hstop (Nat.le_of_not_lt hlong)]

end Payload

section Projection

variable {context : TurnContext} {selection : Selection} {delivery : RelayDelivery}
  {message : RelayMessage} {token : String}

/-- What the text of an attempt says of it. -/
def attemptNote (attempt : ℕ) : AttemptNote :=
  ⟨if attempt ≤ 2 ^ 53 - 1 then some attempt else none,
    (if attempt ≤ 2 ^ 53 - 1 then some attempt else none).map fun count => decide (1 < count)⟩

/-- A projection shows a prefix, names the attempt, and fits the budget. -/
structure Projected (context : TurnContext) (selection : Selection) (delivery : RelayDelivery)
    (message : RelayMessage) (view : DeliveryView) (renderedChars : ℕ) : Prop where
  payload : ∃ stop, 0 < stop ∧ stop ≤ message.payload.length ∧
    view.payload = prefixView message.payload stop
  note : view.note = some (attemptNote (delivery.attempts + 1))
  measured : renderedChars = (deliveryText delivery message view).length +
    if selection.selected.isEmpty then 0 else 2
  fits : context.request.maxChars ≠ 0 →
    selection.used + renderedChars ≤ context.request.maxChars

theorem project_eq_some {prefixChars renderedChars : ℕ} {view : DeliveryView}
    (hshows : 0 < prefixChars) (hwithin : prefixChars ≤ message.payload.length)
    (hproject : project context selection delivery message token prefixChars =
      some (view, renderedChars)) :
    Projected context selection delivery message view renderedChars := by
  unfold project at hproject
  extract_lets _ stamps attempt claimAttempt projection shown measured prospective at hproject
  split at hproject
  · cases hproject
  · next hbudget =>
      split at hproject
      · cases hproject
      · obtain ⟨hview, hchars⟩ := Prod.mk.inj (Option.some.inj hproject)
        have hnote : shown.note = some (attemptNote (delivery.attempts + 1)) := by
          simp only [shown, claimAttempt, attempt, attemptNote]
        have hpayload : shown.payload = prefixView message.payload prefixChars := by
          have hshown : shown.payload = payloadView message.payload 0
              (if prefixChars = message.payload.length then none else some prefixChars) := rfl
          rw [hshown]
          split
          · next hwhole => rw [payloadView_none, hwhole]
          · rw [payloadView_some, Nat.min_eq_right hwithin]
        rw [← hview, ← hchars]
        refine ⟨⟨prefixChars, hshows, hwithin, hpayload⟩, hnote, rfl, fun hlimited => ?_⟩
        exact Nat.le_of_not_lt fun hover => hbudget ⟨hlimited, hover⟩

theorem longestPrefix_eq_some {α : Type} {fits : ℕ → Option α} {low high : ℤ}
    {best : Option α} {found : α} (hlow : 0 ≤ low)
    (hfound : longestPrefix fits low high best = some found) :
    best = some found ∨
      ∃ chars : ℕ, low ≤ chars ∧ (chars : ℤ) ≤ high ∧ fits chars = some found := by
  fun_induction longestPrefix fits low high best with
  | case1 low high best horder middle hmiss ih =>
    rcases ih hlow hfound with hbest | ⟨chars, hfrom, hto, hfits⟩
    · exact Or.inl hbest
    · exact Or.inr ⟨chars, hfrom, by omega, hfits⟩
  | case2 low high best horder middle candidate hhit ih =>
    rcases ih (by omega) hfound with hbest | ⟨chars, hfrom, hto, hfits⟩
    · refine Or.inr ⟨middle.toNat, by omega, by omega, ?_⟩
      rw [hhit, hbest]
    · exact Or.inr ⟨chars, by omega, hto, hfits⟩
  | case3 low high best horder => exact Or.inl hfound

/-- One round selects nothing, or a safe delivery of which something is shown. -/
theorem examine_cases (context : TurnContext) (selection : Selection)
    (row : RelayDelivery × RelayMessage) :
    ((examine context selection row).selected = selection.selected ∧
        (examine context selection row).used = selection.used) ∨
      ∃ view token renderedChars, deliveryRenderSafe row.1 row.2 ∧
        Projected context selection row.1 row.2 view renderedChars ∧
        (examine context selection row).selected =
          selection.selected ++ [⟨row.1, row.2, view, token⟩] ∧
        (examine context selection row).used = selection.used + renderedChars := by
  obtain ⟨delivery, message⟩ := row
  unfold examine
  dsimp only
  split
  · next hsafe =>
      have hpayload : 0 < message.payload.length := by
        simp only [deliveryRenderSafe, Bool.and_eq_true, bne_iff_ne] at hsafe
        rw [Nat.pos_iff_ne_zero, Ne, String.length_eq_zero_iff]
        exact hsafe.1.2.1
      split
      · exact Or.inl ⟨rfl, rfl⟩
      · next view renderedChars hprojected =>
          refine Or.inr ⟨view, _, renderedChars, hsafe, ?_, rfl, rfl⟩
          split at hprojected
          · next found hfull =>
              cases hprojected
              exact project_eq_some hpayload le_rfl hfull
          · split at hprojected
            · rcases longestPrefix_eq_some (by decide) hprojected with
                hnone | ⟨chars, hfrom, hto, hfits⟩
              · cases hnone
              · exact project_eq_some (by omega) (by omega) hfits
            · cases hprojected
  · exact Or.inl ⟨rfl, rfl⟩

end Projection

section Selections

variable {context : TurnContext} {rows : List (RelayDelivery × RelayMessage)}

/-- The size of the text of a claim. -/
def Selected.chars (chosen : Selected) : ℕ :=
  (deliveryText chosen.delivery chosen.message chosen.view).length

/-- A selected delivery is safe, and something of it is shown. -/
structure Selected.Fitted (chosen : Selected) : Prop where
  safe : deliveryRenderSafe chosen.delivery chosen.message
  payload : ∃ stop, 0 < stop ∧ stop ≤ chosen.message.payload.length ∧
    chosen.view.payload = prefixView chosen.message.payload stop
  note : chosen.view.note = some (attemptNote (chosen.delivery.attempts + 1))

/-- The selected texts and the empty lines between them fit the budget. -/
structure Selection.Measured (context : TurnContext) (selection : Selection) : Prop where
  used : selection.used = joinedSize Selected.chars 2 selection.selected
  fits : context.request.maxChars ≠ 0 → selection.used ≤ context.request.maxChars
  fitted : ∀ chosen ∈ selection.selected, chosen.Fitted

theorem measured_examine {selection : Selection} (hmeasured : selection.Measured context)
    (row : RelayDelivery × RelayMessage) : (examine context selection row).Measured context := by
  rcases examine_cases context selection row with
    ⟨hselected, hused⟩ | ⟨view, token, renderedChars, hsafe, hprojected, hselected, hused⟩
  · exact ⟨by rw [hused, hselected, hmeasured.used], hused ▸ hmeasured.fits,
      hselected ▸ hmeasured.fitted⟩
  · refine ⟨?_, ?_, ?_⟩
    · rw [hused, hselected, joinedSize_concat, hmeasured.used, hprojected.measured]
      rfl
    · rw [hused]
      exact hprojected.fits
    · rw [hselected, List.forall_mem_append, List.forall_mem_singleton]
      exact ⟨hmeasured.fitted, hsafe, hprojected.payload, hprojected.note⟩

theorem measured_selectDeliveries {selection : Selection}
    (hmeasured : selection.Measured context) (rows : List (RelayDelivery × RelayMessage)) :
    (selectDeliveries context selection rows).Measured context := by
  induction rows generalizing selection with
  | nil => exact hmeasured
  | cons row rest ih =>
    have hnext := measured_examine hmeasured row
    unfold selectDeliveries
    dsimp only
    split
    · exact hnext
    · exact ih hnext

theorem sublist_selectDeliveries (selection : Selection)
    (rows : List (RelayDelivery × RelayMessage)) :
    ∃ chosen, chosen.Sublist rows ∧
      (selectDeliveries context selection rows).selected.map
          (fun chosen => (chosen.delivery, chosen.message)) =
        selection.selected.map (fun chosen => (chosen.delivery, chosen.message)) ++ chosen := by
  induction rows generalizing selection with
  | nil => exact ⟨[], List.Sublist.refl [], (List.append_nil _).symm⟩
  | cons row rest ih =>
    have hfirst : ∃ first, first.Sublist [row] ∧
        (examine context selection row).selected.map
            (fun chosen => (chosen.delivery, chosen.message)) =
          selection.selected.map (fun chosen => (chosen.delivery, chosen.message)) ++ first := by
      rcases examine_cases context selection row with
        ⟨hselected, -⟩ | ⟨view, token, renderedChars, -, -, hselected, -⟩
      · exact ⟨[], List.nil_sublist _, by rw [hselected, List.append_nil]⟩
      · refine ⟨[row], List.Sublist.refl _, ?_⟩
        rw [hselected, List.map_append, List.map_singleton]
    obtain ⟨first, hsublist, hselected⟩ := hfirst
    unfold selectDeliveries
    dsimp only
    split
    · exact ⟨first, hsublist.trans (List.singleton_sublist.mpr List.mem_cons_self), hselected⟩
    · obtain ⟨others, hothers, hrest⟩ := ih (examine context selection row)
      refine ⟨first ++ others, hsublist.append hothers, ?_⟩
      rw [hrest, hselected, List.append_assoc]

theorem deliveryOrder_iff {left right : RelayDelivery × RelayMessage} :
    deliveryOrder left right ↔
      toLex (left.2.createdAt, left.1.id) ≤ toLex (right.2.createdAt, right.1.id) := by
  rw [Prod.Lex.toLex_le_toLex]
  rfl

instance : Std.Total deliveryOrder where
  total _ _ := (le_total _ _).imp deliveryOrder_iff.mpr deliveryOrder_iff.mpr

instance : IsTrans (RelayDelivery × RelayMessage) deliveryOrder where
  trans _ _ _ hfirst hsecond :=
    deliveryOrder_iff.mpr ((deliveryOrder_iff.mp hfirst).trans (deliveryOrder_iff.mp hsecond))

theorem pairwise_openDeliveries (store : RelayStore) (now : ℤ) (wanted : RelayDelivery → Bool) :
    (openDeliveries store now wanted).Pairwise deliveryOrder :=
  List.pairwise_insertionSort deliveryOrder _

theorem nodup_openDeliveries (store : RelayStore) (now : ℤ) (wanted : RelayDelivery → Bool) :
    ((openDeliveries store now wanted).map fun row => row.1.id).Nodup := by
  have hperm := List.perm_insertionSort deliveryOrder
    (store.deliveries.rows.filterMap fun delivery =>
      (store.messages.get delivery.messageId).bind fun message =>
        if wanted delivery && claimable now delivery && decide (now < message.expiresAt) then
          some (delivery, message)
        else none)
  refine ((hperm.map fun row => row.1.id).nodup_iff).mpr ?_
  have hsublist : ((store.deliveries.rows.filterMap fun delivery =>
      (store.messages.get delivery.messageId).bind fun message =>
        if wanted delivery && claimable now delivery && decide (now < message.expiresAt) then
          some (delivery, message)
        else none).map fun row => row.1.id).Sublist (store.deliveries.rows.map key) := by
    induction store.deliveries.rows with
    | nil => exact List.Sublist.refl _
    | cons delivery rest ih =>
      rw [List.filterMap_cons]
      split
      · exact ih.cons _
      · next row hrow =>
          obtain ⟨message, -, hopen⟩ := Option.bind_eq_some_iff.mp hrow
          split at hopen
          · cases hopen
            exact ih.cons_cons _
          · cases hopen
  exact hsublist.nodup store.deliveries.nodup

theorem selectEligible_part (context : TurnContext) (store : RelayStore) :
    ((selectEligible context store).selected.map fun chosen =>
      (chosen.delivery, chosen.message)).Sublist
        (eligibleFor context.session context.current store) := by
  obtain ⟨chosen, hsublist, hselected⟩ := @sublist_selectDeliveries context ⟨[], 0, store.drawn⟩
    ((eligibleFor context.session context.current store).filter fun row =>
      context.request.exactDeliveryId.all fun deliveryId => row.1.id == deliveryId)
  have hselected : ((selectEligible context store).selected.map fun chosen =>
      (chosen.delivery, chosen.message)) = chosen := hselected
  rw [hselected]
  exact hsublist.trans List.filter_sublist

theorem measured_selectEligible (context : TurnContext) (store : RelayStore) :
    (selectEligible context store).Measured context ∧
      ((selectEligible context store).selected.map fun chosen => chosen.delivery.id).Nodup := by
  have hstart : (⟨[], 0, store.drawn⟩ : Selection).Measured context :=
    ⟨(joinedSize_nil Selected.chars 2).symm, fun _ => Nat.zero_le _,
      List.forall_mem_nil _⟩
  refine ⟨measured_selectDeliveries hstart _, ?_⟩
  have hids : ((selectEligible context store).selected.map fun chosen => chosen.delivery.id) =
      ((selectEligible context store).selected.map fun chosen =>
        (chosen.delivery, chosen.message)).map fun row => row.1.id := by
    rw [List.map_map]
    rfl
  rw [hids]
  have hoffered := nodup_openDeliveries store context.current fun delivery =>
    delivery.recipientEndpointId == some context.session.id
  exact ((selectEligible_part context store).map _).nodup hoffered

end Selections

section Budgets

variable {context : TurnContext} {selection : Selection} {delivery : RelayDelivery}
  {message : RelayMessage} {token : String}

variable {maxChars : ℕ}

/-- The context with another budget for the texts. -/
def TurnContext.limited (context : TurnContext) (maxChars : ℕ) : TurnContext :=
  { context with request := { context.request with maxChars := maxChars } }

theorem exists_project_unlimited (hresponse : context.request.maxResponseChars = 0)
    (prefixChars : ℕ) : ∃ view renderedChars,
      project (context.limited 0) selection delivery message token prefixChars =
        some (view, renderedChars) := by
  unfold project
  extract_lets _ stamps attempt claimAttempt projection shown measured prospective
  have hunlimited : ¬ ((context.limited 0).request.maxChars ≠ 0 ∧
      (context.limited 0).request.maxChars < selection.used + measured) := fun hlimited =>
    hlimited.1 rfl
  have hunmeasured : ¬ ((context.limited 0).request.maxResponseChars ≠ 0 ∧
      (context.limited 0).request.maxResponseChars <
        ((context.limited 0).response prospective).json.length) := fun hlimited =>
    hlimited.1 hresponse
  rw [if_neg hunlimited, if_neg hunmeasured]
  exact ⟨shown, measured, rfl⟩

theorem project_of_fits {prefixChars renderedChars : ℕ} {view : DeliveryView}
    (hproject : project (context.limited 0) selection delivery message token prefixChars =
      some (view, renderedChars)) (hfits : selection.used + renderedChars ≤ maxChars) :
    project (context.limited maxChars) selection delivery message token prefixChars =
      some (view, renderedChars) := by
  unfold project at hproject
  extract_lets _ stamps attempt claimAttempt projection shown measured prospective at hproject
  split at hproject
  · cases hproject
  · split at hproject
    · cases hproject
    · next hresponse =>
        have hchars : measured = renderedChars := (Prod.mk.inj (Option.some.inj hproject)).2
        have hbudget : ¬ (maxChars ≠ 0 ∧ maxChars < selection.used + measured) := fun hover =>
          absurd hover.2 (Nat.not_lt.mpr (hchars ▸ hfits))
        exact (if_neg hbudget).trans ((if_neg hresponse).trans hproject)

theorem examine_of_fits (hresponse : context.request.maxResponseChars = 0)
    (row : RelayDelivery × RelayMessage)
    (hfits : (examine (context.limited 0) selection row).used ≤ maxChars) :
    examine (context.limited maxChars) selection row = examine (context.limited 0) selection row := by
  obtain ⟨delivery, message⟩ := row
  unfold examine at hfits ⊢
  dsimp only at hfits ⊢
  by_cases hsafe : deliveryRenderSafe delivery message = true
  · rw [if_pos hsafe] at hfits
    rw [if_pos hsafe, if_pos hsafe]
    obtain ⟨view, renderedChars, hproject⟩ :=
      @exists_project_unlimited context { selection with drawn := selection.drawn + 1 } delivery
        message ("relay-claim-" ++ (context.limited 0).host.uuid4Hex selection.drawn) hresponse
        message.payload.length
    rw [hproject] at hfits
    have hlimited : project (context.limited maxChars)
        { selection with drawn := selection.drawn + 1 } delivery message
          ("relay-claim-" ++ (context.limited maxChars).host.uuid4Hex selection.drawn)
            message.payload.length = some (view, renderedChars) := project_of_fits hproject hfits
    rw [hproject, hlimited]
    rfl
  · rw [if_neg hsafe, if_neg hsafe]

theorem used_le_selectDeliveries (selection : Selection)
    (rows : List (RelayDelivery × RelayMessage)) :
    selection.used ≤ (selectDeliveries context selection rows).used := by
  induction rows generalizing selection with
  | nil => exact le_rfl
  | cons row rest ih =>
    have hfirst : selection.used ≤ (examine context selection row).used := by
      rcases examine_cases context selection row with
        ⟨-, hused⟩ | ⟨view, token, renderedChars, -, -, -, hused⟩
      · exact hused.ge
      · rw [hused]
        exact Nat.le_add_right _ _
    unfold selectDeliveries
    dsimp only
    split
    · exact hfirst
    · exact hfirst.trans (ih _)

theorem selectDeliveries_of_fits (hresponse : context.request.maxResponseChars = 0)
    (selection : Selection) (rows : List (RelayDelivery × RelayMessage))
    (hfits : (selectDeliveries (context.limited 0) selection rows).used ≤ maxChars) :
    selectDeliveries (context.limited maxChars) selection rows =
      selectDeliveries (context.limited 0) selection rows := by
  induction rows generalizing selection with
  | nil => rfl
  | cons row rest ih =>
    have hfirst : (examine (context.limited 0) selection row).used ≤ maxChars := by
      refine le_trans ?_ hfits
      unfold selectDeliveries
      dsimp only
      split
      · exact le_rfl
      · exact used_le_selectDeliveries _ rest
    unfold selectDeliveries at hfits ⊢
    dsimp only at hfits ⊢
    rw [examine_of_fits hresponse row hfirst]
    split at hfits
    · next hfull =>
        exact (if_pos hfull).trans (if_pos hfull).symm
    · next hopen =>
        exact (if_neg hopen).trans ((ih _ hfits).trans (if_neg hopen).symm)

theorem selectEligible_of_fits (hresponse : context.request.maxResponseChars = 0)
    (store : RelayStore) (hfits : (selectEligible (context.limited 0) store).used ≤ maxChars) :
    selectEligible (context.limited maxChars) store = selectEligible (context.limited 0) store :=
  selectDeliveries_of_fits hresponse _ _ hfits

end Budgets

end Pallium.Relay
