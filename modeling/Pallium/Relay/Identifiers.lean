import Pallium.Relay.Native
import Pallium.Relay.Service

/-!
# The forms of the identifiers

Sessions and deliveries are stored under ids made from random draws.  Hence the
native input id of a wake and the id of its delivery have the forms that the
plugin checks before it submits an input.
-/

namespace Pallium.Relay

open Pallium.Run Pallium.Transaction Pallium.Text

section Stored

variable {host : Host} {now : ℤ} {before middle after store : RelayStore}

/-- Sessions may be added, each under an id drawn for it. -/
def SessionsNamed (host : Host) (before after : RelayStore) : Prop :=
  ∀ endpointId session, after.sessions.get endpointId = some session →
    (before.sessions.get endpointId).isSome ∨
      ∃ draw, endpointId = "relay-session-" ++ host.uuid4Hex draw

/-- Deliveries may be added, each under an id drawn for it. -/
def DeliveriesNamed (host : Host) (before after : RelayStore) : Prop :=
  ∀ deliveryId delivery, after.deliveries.get deliveryId = some delivery →
    (before.deliveries.get deliveryId).isSome ∨
      ∃ draw, deliveryId = "relay-delivery-" ++ host.uuid4Hex draw

theorem SessionsNamed.of_eq (hsessions : after.sessions = before.sessions) :
    SessionsNamed host before after := by
  intro endpointId session hget
  rw [hsessions] at hget
  exact Or.inl (Option.isSome_of_eq_some hget)

theorem SessionsNamed.of_mapped (hmapped : SessionsMapped before after) :
    SessionsNamed host before after := by
  obtain ⟨change, -, hafter⟩ := hmapped
  intro endpointId session hget
  rw [hafter] at hget
  obtain ⟨old, hold, -⟩ := Option.map_eq_some_iff.mp hget
  exact Or.inl (Option.isSome_of_eq_some hold)

theorem SessionsNamed.trans (hfirst : SessionsNamed host before middle)
    (hsecond : SessionsNamed host middle after) : SessionsNamed host before after := by
  intro endpointId session hget
  rcases hsecond endpointId session hget with hmiddle | hnew
  · obtain ⟨old, hold⟩ := Option.isSome_iff_exists.mp hmiddle
    exact hfirst endpointId old hold
  · exact Or.inr hnew

variable {request : TurnRequest}

theorem resolveScope_named {registered : Option RelaySession} {generation : ℕ}
    (hscope : resolveScope request store = .ok (after, registered, generation)) :
    SessionsNamed host store after := by
  cases resolveScope_eq_ok hscope with
  | direct => exact .of_eq rfl
  | confirmed => exact .of_eq rfl
  | replayed => exact .of_eq rfl
  | moved _ _ _ _ _ _ _ hmoved =>
    intro endpointId session hget
    rw [hmoved.get_sessions] at hget
    split at hget
    · obtain ⟨old, hold, -⟩ := Option.map_eq_some_iff.mp hget
      exact Or.inl (Option.isSome_of_eq_some hold)
    · exact Or.inl (Option.isSome_of_eq_some hget)

theorem admitSession_named {registered : Option RelaySession} {generation : ℕ}
    {admission : Admission}
    (hadmitted : admitSession host request now registered generation store =
      .ok (after, admission)) : SessionsNamed host store after := by
  refine admitSession_cases hadmitted (.of_eq rfl)
    (fun sessions _ _ hinsert endpointId session hget => ?_)
    fun _ _ hchange => .of_mapped (mapped_refreshed store _ hchange)
  change sessions.get endpointId = some session at hget
  rw [Table.get_insertNew hinsert] at hget
  split at hget
  · next hnew => exact Or.inr ⟨store.drawn, hnew⟩
  · exact Or.inl (Option.isSome_of_eq_some hget)

theorem turnInScope_named {clock : ClaimClock} {wake : Option OpenCodeWake}
    {response : TurnResponse}
    (hturn : turnInScope host request clock now wake store = .ok (after, response)) :
    SessionsNamed host store after :=
  turnInScope_related SessionsNamed.trans resolveScope_named admitSession_named
    (fun hclaims => .of_eq (claimEligible_registry hclaims).sessions) hturn

theorem relayTurn_named {clock : ClaimClock} :
    SessionsNamed host store (relayTurn host request clock now store).1 :=
  relayTurn_cases (.of_eq rfl) turnInScope_named
    (fun _ hcontext => .of_eq (openCodeContext_sweeps hcontext).sessions)
    fun _ hcontext hturn => SessionsNamed.trans (.of_eq (openCodeContext_sweeps hcontext).sessions)
      (turnInScope_named hturn)

theorem RelayOp.step_sessionsNamed (op : RelayOp) :
    SessionsNamed host store (op.step host store) := by
  cases op with
  | turn request clock now => exact relayTurn_named
  | openCodeContext request maxChars now => exact relayTurn_named
  | openCodeWake | closeSession | nameSession | markActive | markUnreachable =>
    exact .of_mapped (RelayOp.step_written (by trivial)).mapped
  | repairApply manifest evidence now =>
    exact .of_eq (relayEndpointRepairApply_registry manifest evidence).sessions
  | _ => exact .of_eq (RelayOp.step_mailed (by trivial)).sessions

theorem DeliveriesNamed.refl (store : RelayStore) : DeliveriesNamed host store store :=
  fun _ _ hget => Or.inl (Option.isSome_of_eq_some hget)

theorem DeliveriesNamed.of_swept {message : RelayMessage} {target : RelaySession}
    (hadded : Added host message target before middle)
    (hkept : ∀ deliveryId, middle.deliveries.get deliveryId = none →
      after.deliveries.get deliveryId = none) : DeliveriesNamed host before after := by
  intro deliveryId delivery hget
  cases hmiddle : middle.deliveries.get deliveryId with
  | none =>
    rw [hkept deliveryId hmiddle] at hget
    cases hget
  | some row =>
    rw [hadded.deliveries] at hmiddle
    split at hmiddle
    · next hnew => exact Or.inr ⟨before.drawn, hnew⟩
    · exact Or.inl (Option.isSome_of_eq_some hmiddle)

theorem Evolves.deliveriesNamed (hevolves : Evolves host now none before after) :
    DeliveriesNamed host before after := by
  intro deliveryId delivery hget
  cases hevolves.births with
  | nothing _ hdeliveries =>
    cases hbefore : before.deliveries.get deliveryId with
    | none =>
      rw [hdeliveries deliveryId hbefore] at hget
      cases hget
    | some old => exact Or.inl rfl
  | one hwrites => cases hwrites

theorem Sweeps.deliveriesNamed (hsweeps : Sweeps now before after) :
    DeliveriesNamed host before after := by
  intro deliveryId delivery hget
  cases hbefore : before.deliveries.get deliveryId with
  | none =>
    rw [hsweeps.absent deliveryId hbefore] at hget
    cases hget
  | some old => exact Or.inl rfl

theorem relaySend_deliveriesNamed (request : SendRequest) :
    DeliveriesNamed host store (relaySend host request now store).1 := by
  have houtcome := @relaySend_outcome host now store request
  generalize relaySend host request now store = outcome at houtcome
  cases houtcome with
  | refused => exact .refl store
  | repeated _ _ _ hsweeps => exact hsweeps.deliveriesNamed
  | created _ _ _ hadded hsweeps => exact .of_swept hadded hsweeps.absent

theorem relayReplyAtomic_deliveriesNamed (request : ReplyRequest) :
    DeliveriesNamed host store (relayReplyAtomic host request now store).1 := by
  have houtcome := @relayReplyAtomic_outcome host now store request
  generalize relayReplyAtomic host request now store = outcome at houtcome
  cases houtcome with
  | refused => exact .refl store
  | expired hget hmessage hstate hexpired =>
    rw [← Table.key_of_get hget, key_delivery] at hget
    exact (expireClaim_sweeps hget hmessage hstate hexpired).deliveriesNamed
  | @answered delivery message after view hget hmessage hcheck hanswered hview =>
    cases hanswered with
    | repeated _ _ hsweeps => exact hsweeps.deliveriesNamed
    | @created sender recipient added _ _ hadded hsweeps =>
      refine .of_swept hadded fun deliveryId hnone => hsweeps.absent deliveryId ?_
      unfold finishReplied
      split
      · rw [get_markDelivered, hnone, Option.map_none, ite_self]
      · exact hnone

theorem RelayOp.step_deliveriesNamed (op : RelayOp) :
    DeliveriesNamed host store (op.step host store) := by
  cases hwrites : op.writes host with
  | none =>
    have hevolves := op.step_evolves host store
    rw [hwrites] at hevolves
    exact hevolves.deliveriesNamed
  | some messageId =>
    cases op with
    | send request now => exact relaySend_deliveriesNamed request
    | reply request now => exact relayReplyAtomic_deliveriesNamed _
    | _ => cases hwrites

/-- Every session and every delivery is stored under an id drawn for it. -/
structure StoreNamed (host : Host) (store : RelayStore) : Prop where
  sessions : ∀ endpointId session, store.sessions.get endpointId = some session →
    ∃ draw, endpointId = "relay-session-" ++ host.uuid4Hex draw
  deliveries : ∀ deliveryId delivery, store.deliveries.get deliveryId = some delivery →
    ∃ draw, deliveryId = "relay-delivery-" ++ host.uuid4Hex draw

theorem StoreNamed.empty (host : Host) : StoreNamed host RelayStore.empty where
  sessions _ _ hget := nomatch hget
  deliveries _ _ hget := nomatch hget

theorem RelayOp.step_storeNamed (op : RelayOp) (hstore : StoreNamed host store) :
    StoreNamed host (op.step host store) where
  sessions endpointId session hget := by
    rcases @RelayOp.step_sessionsNamed host store op endpointId session hget with hold | hnew
    · obtain ⟨old, hold⟩ := Option.isSome_iff_exists.mp hold
      exact hstore.sessions endpointId old hold
    · exact hnew
  deliveries deliveryId delivery hget := by
    rcases @RelayOp.step_deliveriesNamed host store op deliveryId delivery hget with hold | hnew
    · obtain ⟨old, hold⟩ := Option.isSome_iff_exists.mp hold
      exact hstore.deliveries deliveryId old hold
    · exact hnew

theorem reached_storeNamed (host : Host) (ops : List RelayOp) :
    StoreNamed host (reached host ops) :=
  run_invariant (StoreNamed.empty host) (fun _ op hstore => op.step_storeNamed hstore) ops

end Stored

section Native

variable {host : Host}

/-- `uuid4().hex` has 32 hexadecimal digits. -/
def Host.DrawsHex (host : Host) : Prop := ∀ draw, isHexOfLength 32 (host.uuid4Hex draw)

theorem validDelivery_of_stored {store : RelayStore} {deliveryId : String}
    {delivery : RelayDelivery} (hdraws : host.DrawsHex) (hnamed : StoreNamed host store)
    (hget : store.deliveries.get deliveryId = some delivery) : validDelivery deliveryId := by
  obtain ⟨draw, rfl⟩ := hnamed.deliveries deliveryId delivery hget
  exact isHexIdentifier_append (hdraws draw)

theorem isIdChar_of_lowerHex {c : Char} (hhex : isLowerHex c) : isIdChar c := by
  simp only [isLowerHex, Bool.or_eq_true, Bool.and_eq_true, decide_eq_true_eq] at hhex
  simp only [isIdChar, Char.isAlphanum, Char.isAlpha, Char.isLower, Char.isDigit, Bool.or_eq_true,
    Bool.and_eq_true, decide_eq_true_eq]
  rcases hhex with ⟨hlow, hhigh⟩ | ⟨hlow, hhigh⟩
  · exact Or.inl (Or.inl (Or.inr ⟨hlow, hhigh⟩))
  · refine Or.inl (Or.inl (Or.inl (Or.inr ⟨hlow, hhigh.trans ?_⟩)))
    decide

theorem isIdChar_of_digit {c : Char} (hdigit : c.isDigit) : isIdChar c := by
  rw [isIdChar, Char.isAlphanum, hdigit, Bool.or_true, Bool.true_or, Bool.true_or]

theorem validInput_nativeId {wake : OpenCodeWake} {draw : ℕ} (hdraws : host.DrawsHex)
    (hendpoint : wake.endpointId = "relay-session-" ++ host.uuid4Hex draw)
    (hgeneration : wake.generation < 2 ^ 63) : validInput wake.nativeId := by
  have hhex := hdraws draw
  rw [isHexOfLength, Bool.and_eq_true, beq_iff_eq, List.all_eq_true] at hhex
  have hdrop : Text.drop 14 wake.endpointId = host.uuid4Hex draw := by
    have hleft : ("relay-session-".toList ++ (host.uuid4Hex draw).toList).drop 14 =
        (host.uuid4Hex draw).toList := rfl
    rw [hendpoint, Text.drop, String.toList_append, hleft, String.ofList_toList]
  have hchars : wake.nativeId.toList =
      "msg_".toList ++ ("pallium_".toList ++ ((host.uuid4Hex draw).toList ++
        ("_".toList ++ Nat.toDigits 10 wake.generation))) := by
    have hhead : "msg_pallium_".toList = "msg_".toList ++ "pallium_".toList := rfl
    have htail : (toString wake.generation).toList = Nat.toDigits 10 wake.generation :=
      String.toList_ofList
    rw [OpenCodeWake.nativeId, hdrop, String.toList_append, String.toList_append,
      String.toList_append, hhead, htail, List.append_assoc, List.append_assoc, List.append_assoc]
  have hdigits : (Nat.toDigits 10 wake.generation).length ≤ 19 :=
    Nat.toDigits_length 10 _ 19 (by decide) (hgeneration.trans (by decide))
  rw [validInput, hchars]
  have hrest : ("msg_".toList ++ ("pallium_".toList ++ ((host.uuid4Hex draw).toList ++
        ("_".toList ++ Nat.toDigits 10 wake.generation)))).drop 4 =
      "pallium_".toList ++ ((host.uuid4Hex draw).toList ++
        ("_".toList ++ Nat.toDigits 10 wake.generation)) := rfl
  simp only [hrest, Bool.and_eq_true, decide_eq_true_eq]
  refine ⟨⟨⟨?_, List.isPrefixOf_iff_prefix.mpr (List.prefix_append _ _)⟩, rfl⟩,
    List.all_eq_true.mpr fun c hc => ?_⟩
  · simp only [List.length_append, hhex.1]
    have hhead : "msg_".toList.length = 4 ∧ "pallium_".toList.length = 8 ∧ "_".toList.length = 1 :=
      ⟨rfl, rfl, rfl⟩
    omega
  · simp only [List.mem_append] at hc
    rcases hc with hc | hc | hc | hc
    · exact List.all_eq_true.mp (by decide : "pallium_".toList.all isIdChar) c hc
    · exact isIdChar_of_lowerHex (hhex.2 c hc)
    · exact List.all_eq_true.mp (by decide : "_".toList.all isIdChar) c hc
    · exact isIdChar_of_digit (Nat.isDigit_of_mem_toDigits (by decide) (by decide) hc)

end Native

end Pallium.Relay
