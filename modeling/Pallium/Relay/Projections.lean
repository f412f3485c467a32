import Pallium.Core.JsonSize
import Pallium.Relay.ContextTurn

/-!
# What a selection has kept to

The text of a delivery and the response that carries it grow with the prefix that is
shown, although the count of what is omitted may lose a digit.  So the search by halving
finds the longest prefix that fits, and what a selection adds keeps to its budgets.
-/

namespace Pallium.Relay

open Pallium.Run Pallium.Transaction Pallium.Packing Pallium.Calendar
open Pallium.JsonText

section Sizes

/-- The text of a delivery grows with its payload and the note of what is omitted. -/
theorem length_deliveryText_le (delivery : RelayDelivery) (message : RelayMessage)
    (view : DeliveryView) {payload larger : PayloadView}
    (htruncated : payload.contentTruncated = true) (hlarger : larger.contentTruncated = true)
    (hchars : payload.payload.length +
        (toString (payload.payloadTotalChars - payload.nextOffset.getD 0)).length +
          (toString (payload.nextOffset.getD 0)).length ≤
      larger.payload.length +
        (toString (larger.payloadTotalChars - larger.nextOffset.getD 0)).length +
          (toString (larger.nextOffset.getD 0)).length) :
    (deliveryText delivery message { view with payload := payload }).length ≤
      (deliveryText delivery message { view with payload := larger }).length := by
  simp only [deliveryText, htruncated, hlarger, if_true, length_intercalate]
  refine Nat.sub_le_sub_right ?_ _
  simp only [List.map_append, List.sum_append, List.map_cons, List.map_nil, List.sum_cons,
    List.sum_nil, String.length_append]
  omega

/-- The JSON text of a delivery grows with its payload and the offset after it. -/
theorem length_json_le (view : DeliveryView) {payload larger : PayloadView}
    (hpayload : (text payload.payload).length ≤ (text larger.payload).length)
    (hoffset : payload.payloadOffset = larger.payloadOffset)
    (htotal : payload.payloadTotalChars = larger.payloadTotalChars)
    (htruncated : payload.contentTruncated = larger.contentTruncated)
    (hnext : (nullable (fun offset : ℕ => integer offset) payload.nextOffset).length ≤
      (nullable (fun offset : ℕ => integer offset) larger.nextOffset).length) :
    ({ view with payload := payload } : DeliveryView).json.length ≤
      ({ view with payload := larger } : DeliveryView).json.length := by
  refine length_object_le (List.rel_append ?_ (List.forall₂_same.mpr fun field _ => .refl field))
  rw [hoffset, htotal, htruncated]
  simp only [List.forall₂_cons, FieldLe, le_refl, and_self, hpayload, hnext,
    List.forall₂_nil_left_iff]

end Sizes

section Prefixes

variable {context : TurnContext} {delivery : RelayDelivery} {message : RelayMessage}
  {token : String} {stop : ℕ}

/-- The view of a delivery about to be claimed, up to a character. -/
def projectedView (context : TurnContext) (delivery : RelayDelivery) (message : RelayMessage)
    (token : String) (stop : ℕ) : DeliveryView :=
  { deliveryView context.host { DeliveryStamps.stored with claim := isoformatUtc } delivery message
      (some context.session.state) 0 none with
    payload := prefixView message.payload stop
    state := .claimed
    claimToken := some token
    receipt := deliveryReceipt context.host (some token)
    claimedAt := some (isoformatUtc context.current)
    leaseExpiresAt := some (isoformatUtc context.leaseExpiresAt)
    attempts := delivery.attempts + 1
    note := some (attemptNote (delivery.attempts + 1)) }

/-- The text of the delivery up to a character keeps to the budget, and the response that
would carry it after the selected ones does. -/
structure ProjectionFits (context : TurnContext) (selected : List Selected) (used : ℕ)
    (delivery : RelayDelivery) (message : RelayMessage) (token : String) (stop : ℕ) : Prop where
  chars : context.request.maxChars ≠ 0 →
    used + ((deliveryText delivery message
      (projectedView context delivery message token stop)).length +
        if selected.isEmpty then 0 else 2) ≤ context.request.maxChars
  response : context.request.maxResponseChars ≠ 0 →
    (context.response (selected.map Selected.view ++
      [projectedView context delivery message token stop])).json.length ≤
        context.request.maxResponseChars

theorem projectedView_payload (hstop : stop ≤ message.payload.length) :
    payloadView message.payload 0 (if stop = message.payload.length then none else some stop) =
      prefixView message.payload stop := by
  by_cases hwhole : stop = message.payload.length
  · rw [if_pos hwhole, payloadView_none, hwhole]
  · rw [if_neg hwhole, payloadView_some, Nat.min_eq_right hstop]

theorem project_eq (selection : Selection) (hstop : stop ≤ message.payload.length) :
    project context selection delivery message token stop =
      if context.request.maxChars ≠ 0 ∧ context.request.maxChars < selection.used +
          ((deliveryText delivery message
            (projectedView context delivery message token stop)).length +
              if selection.selected.isEmpty then 0 else 2) then
        none
      else if context.request.maxResponseChars ≠ 0 ∧ context.request.maxResponseChars <
          (context.response (selection.selected.map Selected.view ++
            [projectedView context delivery message token stop])).json.length then
        none
      else some (projectedView context delivery message token stop,
        (deliveryText delivery message (projectedView context delivery message token stop)).length +
          if selection.selected.isEmpty then 0 else 2) := by
  unfold project
  simp only [deliveryView, projectedView_payload hstop]
  rfl

/-- A projection succeeds exactly if it fits. -/
theorem project_eq_some_of_fits {selection : Selection} (hstop : stop ≤ message.payload.length)
    (hfits : ProjectionFits context selection.selected selection.used delivery message token stop) :
    project context selection delivery message token stop =
      some (projectedView context delivery message token stop,
        (deliveryText delivery message (projectedView context delivery message token stop)).length +
          if selection.selected.isEmpty then 0 else 2) := by
  rw [project_eq selection hstop]
  refine (if_neg fun hover => ?_).trans (if_neg fun hover => ?_)
  · exact absurd hover.2 (Nat.not_lt.mpr (hfits.chars hover.1))
  · exact absurd hover.2 (Nat.not_lt.mpr (hfits.response hover.1))

theorem project_eq_none_iff {selection : Selection} (hstop : stop ≤ message.payload.length) :
    project context selection delivery message token stop = none ↔
      ¬ ProjectionFits context selection.selected selection.used delivery message token stop := by
  refine ⟨fun hnone hfits => ?_, fun hover => ?_⟩
  · rw [project_eq_some_of_fits hstop hfits] at hnone
    cases hnone
  · rw [project_eq selection hstop]
    by_cases hchars : context.request.maxChars ≠ 0 ∧ context.request.maxChars < selection.used +
        ((deliveryText delivery message
          (projectedView context delivery message token stop)).length +
            if selection.selected.isEmpty then 0 else 2)
    · exact if_pos hchars
    · refine (if_neg hchars).trans (if_pos ?_)
      by_contra hresponse
      refine hover ⟨fun hlimited => ?_, fun hlimited => ?_⟩
      · exact Nat.le_of_not_lt fun hmore => hchars ⟨hlimited, hmore⟩
      · exact Nat.le_of_not_lt fun hmore => hresponse ⟨hlimited, hmore⟩

theorem length_response_le (context : TurnContext) {views others : List DeliveryView}
    (hviews : List.Forall₂ (fun view larger => view.json.length ≤ larger.json.length) views
      others) :
    (context.response views).json.length ≤ (context.response others).json.length := by
  have hdeliveries : (array (views.map DeliveryView.json)).length ≤
      (array (others.map DeliveryView.json)).length := by
    refine length_array_le (List.forall₂_map_left_iff.mpr (List.forall₂_map_right_iff.mpr ?_))
    exact hviews
  refine length_object_le (List.rel_append ?_ (List.forall₂_same.mpr fun field _ => .refl field))
  simp only [TurnContext.response, hviews.length_eq]
  simp only [List.forall₂_cons, FieldLe, le_refl, and_self, hdeliveries,
    List.forall₂_nil_left_iff]

theorem ProjectionFits.shorter {selected : List Selected} {used stop longer : ℕ}
    (hfits : ProjectionFits context selected used delivery message token longer)
    (hless : stop ≤ longer) (hlonger : longer < message.payload.length) :
    ProjectionFits context selected used delivery message token stop := by
  have hstop : stop < message.payload.length := hless.trans_lt hlonger
  have hshort : (prefixView message.payload stop).nextOffset = some stop := if_pos hstop
  have hlong : (prefixView message.payload longer).nextOffset = some longer := if_pos hlonger
  have htext : (deliveryText delivery message
        (projectedView context delivery message token stop)).length ≤
      (deliveryText delivery message
        (projectedView context delivery message token longer)).length := by
    refine length_deliveryText_le delivery message
      (projectedView context delivery message token stop) (decide_eq_true hstop)
      (decide_eq_true hlonger) ?_
    rw [hshort, hlong, length_prefixView hstop.le, length_prefixView hlonger.le, Option.getD_some,
      Option.getD_some]
    have hdigits := length_toString_mono hless
    have homitted := length_toString_add (message.payload.length - longer) (longer - stop)
    have hsplit : message.payload.length - longer + (longer - stop) =
        message.payload.length - stop := by omega
    rw [hsplit] at homitted
    change stop + (toString (message.payload.length - stop)).length + _ ≤
      longer + (toString (message.payload.length - longer)).length + _
    omega
  have hjson : (projectedView context delivery message token stop).json.length ≤
      (projectedView context delivery message token longer).json.length := by
    refine length_json_le (projectedView context delivery message token stop)
      (length_text_take hless message.payload) rfl rfl ?_ ?_
    · exact (decide_eq_true hstop).trans (decide_eq_true hlonger).symm
    · rw [hshort, hlong]
      exact length_integer_mono hless
  constructor
  · intro hlimited
    have hlonger := hfits.chars hlimited
    omega
  · intro hlimited
    refine (length_response_le context (List.rel_append ?_ ?_)).trans (hfits.response hlimited)
    · exact List.forall₂_same.mpr fun view _ => le_rfl
    · exact .cons hjson .nil

end Prefixes

section Search

/-- What the search by halving returns when every shorter length fits too: the starting value
if nothing fits, and else what the greatest fitting length yields. -/
theorem longestPrefix_greatest {α : Type} {fits : ℕ → Option α} {first last : ℕ}
    (hinherited : ∀ count other, first ≤ count → count ≤ other → other ≤ last →
      (fits other).isSome → (fits count).isSome) (low high : ℤ) (best : Option α)
    (hfirst : (first : ℤ) ≤ low) (hlast : high ≤ last) :
    ((∀ count : ℕ, low ≤ count → (count : ℤ) ≤ high → fits count = none) ∧
        longestPrefix fits low high best = best) ∨
      ∃ stop : ℕ, low ≤ stop ∧ (stop : ℤ) ≤ high ∧ (fits stop).isSome ∧
        (∀ count : ℕ, stop < count → (count : ℤ) ≤ high → fits count = none) ∧
        longestPrefix fits low high best = fits stop := by
  fun_induction longestPrefix fits low high best with
  | case1 low high best horder middle hmiss ih =>
    have hmiddle : middle = (low + high) / 2 := rfl
    have habove : ∀ count : ℕ, middle ≤ count → (count : ℤ) ≤ high → fits count = none := by
      intro count hfrom hto
      refine Option.not_isSome_iff_eq_none.mp fun hfits => ?_
      have hsmaller := hinherited middle.toNat count (by omega) (by omega) (by omega) hfits
      rw [hmiss] at hsmaller
      cases hsmaller
    rcases ih hfirst (by omega) with ⟨hnone, hbest⟩ | ⟨stop, hfrom, hto, hfits, hbeyond, hfound⟩
    · refine Or.inl ⟨fun count hlow hhigh => ?_, hbest⟩
      by_cases hbelow : (count : ℤ) ≤ middle - 1
      · exact hnone count hlow hbelow
      · exact habove count (by omega) hhigh
    · refine Or.inr ⟨stop, hfrom, by omega, hfits, fun count hlow hhigh => ?_, hfound⟩
      by_cases hbelow : (count : ℤ) ≤ middle - 1
      · exact hbeyond count hlow hbelow
      · exact habove count (by omega) hhigh
  | case2 low high best horder middle candidate hhit ih =>
    have hmiddle : middle = (low + high) / 2 := rfl
    rcases ih (by omega) hlast with ⟨hnone, hbest⟩ | ⟨stop, hfrom, hto, hfits, hbeyond, hfound⟩
    · refine Or.inr ⟨middle.toNat, by omega, by omega, ?_, fun count hlow hhigh => ?_, ?_⟩
      · rw [hhit]
        rfl
      · exact hnone count (by omega) hhigh
      · rw [hbest, hhit]
    · exact Or.inr ⟨stop, by omega, hto, hfits, hbeyond, hfound⟩
  | case3 low high best horder => exact Or.inl ⟨fun count hlow hhigh => by omega, rfl⟩

end Search

section Rounds

variable {context : TurnContext}

/-- A claim that is shown in full. -/
def Selected.Whole (context : TurnContext) (chosen : Selected) : Prop :=
  chosen.view = projectedView context chosen.delivery chosen.message chosen.token
    chosen.message.payload.length

/-- A first claim that is shown up to a character: nothing longer fits, and this does. -/
def Selected.Longest (context : TurnContext) (chosen : Selected) : Prop :=
  ∃ stop, 0 < stop ∧ stop < chosen.message.payload.length ∧
    chosen.view = projectedView context chosen.delivery chosen.message chosen.token stop ∧
    ProjectionFits context [] 0 chosen.delivery chosen.message chosen.token stop ∧
    ∀ longer, stop < longer → longer ≤ chosen.message.payload.length →
      ¬ ProjectionFits context [] 0 chosen.delivery chosen.message chosen.token longer

/-- A claim shows the payload up to some character. -/
def Selected.Shown (context : TurnContext) (chosen : Selected) : Prop :=
  ∃ stop ≤ chosen.message.payload.length,
    chosen.view = projectedView context chosen.delivery chosen.message chosen.token stop

theorem Selected.Whole.shown {chosen : Selected} (hwhole : chosen.Whole context) :
    chosen.Shown context := ⟨_, le_rfl, hwhole⟩

theorem Selected.Longest.shown {chosen : Selected} (hlongest : chosen.Longest context) :
    chosen.Shown context := by
  obtain ⟨stop, -, hstop, hview, -⟩ := hlongest
  exact ⟨stop, hstop.le, hview⟩

section

variable {selection : Selection}

theorem isSome_project_of_le {context : TurnContext}
    {delivery : RelayDelivery} {message : RelayMessage} {token : String} {count other : ℕ}
    (hle : count ≤ other) (hother : other < message.payload.length)
    (hfits : (project context selection delivery message token other).isSome) :
    (project context selection delivery message token count).isSome := by
  by_contra hmissing
  have hnone := (project_eq_none_iff (hle.trans hother.le)).mp
    (Option.not_isSome_iff_eq_none.mp hmissing)
  refine absurd ((project_eq_none_iff hother.le).mpr fun hlonger => ?_)
    (Option.isSome_iff_ne_none.mp hfits)
  exact hnone (hlonger.shorter hle hother)

/-- The search for a prefix of the first delivery finds the longest one that fits. -/
theorem longestPrefix_project (hstart : selection.selected = [])
    (hused : selection.used = 0) (delivery : RelayDelivery) (message : RelayMessage)
    (token : String) {view : DeliveryView} {renderedChars : ℕ}
    (hwhole : project context selection delivery message token message.payload.length = none)
    (hfound : longestPrefix (project context selection delivery message token) 1
      ((message.payload.length : ℤ) - 1) none = some (view, renderedChars)) :
    Selected.Longest context ⟨delivery, message, view, token⟩ ∧
      ProjectionFits context selection.selected selection.used delivery message token
        view.payload.payload.length := by
  have hinherited : ∀ count other, 1 ≤ count → count ≤ other →
      other ≤ message.payload.length - 1 →
      (project context selection delivery message token other).isSome →
      (project context selection delivery message token count).isSome := by
    intro count other hcount hle hother hfits
    exact isSome_project_of_le hle (by omega) hfits
  rcases longestPrefix_greatest hinherited 1 ((message.payload.length : ℤ) - 1) none le_rfl
    (by omega) with ⟨-, hnone⟩ | ⟨stop, hlow, hhigh, hfits, hbeyond, hbest⟩
  · rw [hnone] at hfound
    cases hfound
  · have hstop : stop < message.payload.length := by omega
    have hprojected : ProjectionFits context selection.selected selection.used delivery message
        token stop := by
      by_contra hover
      exact Option.isSome_iff_ne_none.mp hfits ((project_eq_none_iff hstop.le).mpr hover)
    have hview : view = projectedView context delivery message token stop := by
      rw [hbest, project_eq_some_of_fits hstop.le hprojected] at hfound
      exact (Prod.mk.inj (Option.some.inj hfound)).1.symm
    have hlength : view.payload.payload.length = stop := by
      rw [hview]
      exact length_prefixView hstop.le
    rw [hlength]
    refine ⟨⟨stop, by omega, hstop, hview, ?_, fun longer hless hlonger hover => ?_⟩, hprojected⟩
    · rw [hstart, hused] at hprojected
      exact hprojected
    · have hwithin : longer ≤ message.payload.length := hlonger
      have hnone : project context selection delivery message token longer = none := by
        rcases hwithin.lt_or_eq with hshorter | rfl
        · exact hbeyond longer hless (by omega)
        · exact hwhole
      rw [project_eq_none_iff hwithin, hstart, hused] at hnone
      exact hnone hover

/-- What a selection has kept to. -/
structure Selection.Budgeted (context : TurnContext) (selection : Selection) : Prop where
  measured : selection.Measured context
  response : selection.selected ≠ [] → context.request.maxResponseChars ≠ 0 →
    (context.response (selection.selected.map Selected.view)).json.length ≤
      context.request.maxResponseChars
  first : ∀ chosen ∈ selection.selected.head?, chosen.Whole context ∨ chosen.Longest context
  others : ∀ chosen ∈ selection.selected.tail, chosen.Whole context

/-- What a round adds keeps to the budgets. -/
theorem examine_projects (hmeasured : selection.Measured context)
    (row : RelayDelivery × RelayMessage) :
    (examine context selection row).selected = selection.selected ∨
      ∃ chosen : Selected, (examine context selection row).selected =
          selection.selected ++ [chosen] ∧
        (context.request.maxResponseChars ≠ 0 →
          (context.response (selection.selected.map Selected.view ++ [chosen.view])).json.length ≤
            context.request.maxResponseChars) ∧
        (chosen.Whole context ∨ selection.selected = [] ∧ chosen.Longest context) := by
  obtain ⟨delivery, message⟩ := row
  unfold examine
  dsimp only
  by_cases hsafe : deliveryRenderSafe delivery message
  · rw [if_pos hsafe]
    generalize "relay-claim-" ++ context.host.uuid4Hex selection.drawn = token
    cases hwhole : project context { selection with drawn := selection.drawn + 1 } delivery message
        token message.payload.length with
    | some found =>
      obtain ⟨view, renderedChars⟩ := found
      have hfits : ProjectionFits context selection.selected selection.used delivery message token
          message.payload.length := by
        by_contra hover
        have hnone := (@project_eq_none_iff context delivery message token _
          { selection with drawn := selection.drawn + 1 } le_rfl).mpr hover
        rw [hwhole] at hnone
        cases hnone
      have hview : view = projectedView context delivery message token
          message.payload.length := by
        have hprojected := @project_eq_some_of_fits context delivery message token _
          { selection with drawn := selection.drawn + 1 } le_rfl hfits
        rw [hwhole] at hprojected
        exact (Prod.mk.inj (Option.some.inj hprojected)).1
      refine Or.inr ⟨⟨delivery, message, view, token⟩, rfl, ?_, Or.inl hview⟩
      rw [hview]
      exact hfits.response
    | none =>
      by_cases hfirst : selection.selected.isEmpty ∧ 1 < message.payload.length
      · rw [if_pos hfirst]
        cases hfound : longestPrefix (project context
            { selection with drawn := selection.drawn + 1 } delivery message token) 1
              ((message.payload.length : ℤ) - 1) none with
        | none => exact Or.inl rfl
        | some found =>
          obtain ⟨view, renderedChars⟩ := found
          have hstart : selection.selected = [] := List.isEmpty_iff.mp hfirst.1
          have hused : selection.used = 0 := by
            rw [hmeasured.used, hstart, joinedSize_nil]
          obtain ⟨hlongest, hfits⟩ := @longestPrefix_project context
            { selection with drawn := selection.drawn + 1 } hstart hused delivery message token
              view renderedChars hwhole hfound
          refine Or.inr ⟨⟨delivery, message, view, token⟩, rfl, ?_, Or.inr ⟨hstart, hlongest⟩⟩
          obtain ⟨stop, -, hstop, hview, -⟩ := hlongest
          have hlength : view.payload.payload.length = stop := by
            rw [show view = _ from hview]
            exact length_prefixView hstop.le
          rw [hlength] at hfits
          rw [show view = _ from hview]
          exact hfits.response
      · rw [if_neg hfirst]
        exact Or.inl rfl
  · rw [if_neg hsafe]
    exact Or.inl rfl

theorem budgeted_examine (hbudgeted : selection.Budgeted context)
    (row : RelayDelivery × RelayMessage) : (examine context selection row).Budgeted context := by
  have hmeasured := measured_examine hbudgeted.measured row
  rcases examine_projects hbudgeted.measured row with
    hselected | ⟨chosen, hselected, hresponse, hshown⟩
  · constructor
    · exact hmeasured
    · rw [hselected]
      exact hbudgeted.response
    · rw [hselected]
      exact hbudgeted.first
    · rw [hselected]
      exact hbudgeted.others
  · constructor
    · exact hmeasured
    · rw [hselected, List.map_append, List.map_singleton]
      exact fun _ => hresponse
    · rw [hselected]
      cases hbefore : selection.selected with
      | nil =>
        rintro found ⟨⟩
        exact hshown.imp_right And.right
      | cons first rest =>
        have hfirst := hbudgeted.first
        rw [hbefore] at hfirst
        exact hfirst
    · rw [hselected]
      cases hbefore : selection.selected with
      | nil => exact fun found hfound => absurd hfound List.not_mem_nil
      | cons first rest =>
        have hothers := hbudgeted.others
        rw [hbefore] at hothers
        have hwhole : chosen.Whole context := by
          rcases hshown with hwhole | ⟨hnil, -⟩
          · exact hwhole
          · rw [hbefore] at hnil
            cases hnil
        exact List.forall_mem_append.mpr ⟨hothers, List.forall_mem_singleton.mpr hwhole⟩

theorem budgeted_selectDeliveries (hbudgeted : selection.Budgeted context)
    (rows : List (RelayDelivery × RelayMessage)) :
    (selectDeliveries context selection rows).Budgeted context := by
  induction rows generalizing selection with
  | nil => exact hbudgeted
  | cons row rest ih =>
    have hnext := budgeted_examine hbudgeted row
    unfold selectDeliveries
    dsimp only
    split
    · exact hnext
    · exact ih hnext

theorem length_selectDeliveries (hlimited : context.request.maxMessages ≠ 0)
    (hroom : selection.selected.length < context.request.maxMessages)
    (rows : List (RelayDelivery × RelayMessage)) :
    (selectDeliveries context selection rows).selected.length ≤ context.request.maxMessages := by
  induction rows generalizing selection with
  | nil => exact hroom.le
  | cons row rest ih =>
    have hone : (examine context selection row).selected.length ≤
        selection.selected.length + 1 := by
      rcases examine_cases context selection row with
        ⟨hselected, -⟩ | ⟨view, token, renderedChars, -, -, hselected, -⟩
      · rw [hselected]
        exact Nat.le_succ _
      · rw [hselected, List.length_append, List.length_singleton]
    unfold selectDeliveries
    dsimp only
    split
    · exact hone.trans hroom
    · next hopen =>
        refine ih (Nat.lt_of_not_le fun hfull => hopen ⟨hlimited, hfull⟩)

end

variable {context : TurnContext} {selection : Selection} {delivery : RelayDelivery}
  {message : RelayMessage} {token : String}

/-- The first delivery is shown in part if a prefix fits and the whole does not. -/
theorem examine_selects (hstart : selection.selected = []) (hused : selection.used = 0)
    (hsafe : deliveryRenderSafe delivery message) (hlong : 1 < message.payload.length)
    (htoken : "relay-claim-" ++ context.host.uuid4Hex selection.drawn = token)
    (hwhole : ¬ ProjectionFits context [] 0 delivery message token message.payload.length)
    (hfits : ProjectionFits context [] 0 delivery message token 1) :
    ∃ view, (examine context selection (delivery, message)).selected =
      [⟨delivery, message, view, token⟩] ∧
        Selected.Longest context ⟨delivery, message, view, token⟩ := by
  unfold examine
  dsimp only
  rw [if_pos hsafe, htoken]
  have hnone : project context { selection with drawn := selection.drawn + 1 } delivery message
      token message.payload.length = none := by
    rw [project_eq_none_iff le_rfl, hstart, hused]
    exact hwhole
  have hone : project context { selection with drawn := selection.drawn + 1 } delivery message token
      1 ≠ none := by
    intro hmissing
    rw [project_eq_none_iff hlong.le, hstart, hused] at hmissing
    exact hmissing hfits
  rw [hnone]
  dsimp only
  rw [if_pos ⟨List.isEmpty_iff.mpr hstart, hlong⟩]
  cases hfound : longestPrefix (project context { selection with drawn := selection.drawn + 1 }
      delivery message token) 1 ((message.payload.length : ℤ) - 1) none with
  | none =>
    exfalso
    have hinherited : ∀ count other, 1 ≤ count → count ≤ other →
        other ≤ message.payload.length - 1 →
        (project context { selection with drawn := selection.drawn + 1 } delivery message token
          other).isSome →
        (project context { selection with drawn := selection.drawn + 1 } delivery message token
          count).isSome := fun count other _ hle hother =>
      isSome_project_of_le hle (by omega)
    rcases longestPrefix_greatest hinherited 1 ((message.payload.length : ℤ) - 1) none le_rfl
      (by omega) with ⟨hmissing, -⟩ | ⟨stop, -, -, hfits, -, hbest⟩
    · exact hone (hmissing 1 le_rfl (by omega))
    · rw [hbest] at hfound
      rw [hfound] at hfits
      cases hfits
  | some found =>
    obtain ⟨view, renderedChars⟩ := found
    obtain ⟨hlongest, -⟩ := @longestPrefix_project context
      { selection with drawn := selection.drawn + 1 } hstart hused delivery message token view
        renderedChars hnone hfound
    refine ⟨view, ?_, hlongest⟩
    change selection.selected ++ [_] = _
    rw [hstart, List.nil_append]

/-- A delivery that fits is shown in full. -/
theorem examine_selects_whole (hsafe : deliveryRenderSafe delivery message)
    (htoken : "relay-claim-" ++ context.host.uuid4Hex selection.drawn = token)
    (hfits : ProjectionFits context selection.selected selection.used delivery message token
      message.payload.length) :
    (examine context selection (delivery, message)).selected = selection.selected ++
      [⟨delivery, message, projectedView context delivery message token message.payload.length,
        token⟩] := by
  have hproject := @project_eq_some_of_fits context delivery message token _
    { selection with drawn := selection.drawn + 1 } le_rfl hfits
  unfold examine
  dsimp only
  rw [if_pos hsafe, htoken, hproject]

end Rounds

end Pallium.Relay
