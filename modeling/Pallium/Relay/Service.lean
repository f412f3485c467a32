import Pallium.Relay.Redaction
import Pallium.Relay.Repeats
import Pallium.Relay.Transition

/-!
# What the service stores

`RelayService` validates its arguments before it calls the store and redacts every
payload.  An operation is `Served` if its arguments are such values; endpoint
repairs are not part of the service.  In every store that served operations reach,
all texts of a delivery's rendering are safe and each delivery is addressed to a
session of its own runtime.
-/

namespace Pallium.Relay

open Pallium.Run Pallium.Text Pallium.Transaction

section Validation

/-- `_opaque`. -/
def opaqueText (field : String) (maximum : ℕ) (value : String) : Except RelayError String := do
  require (value ≠ "" ∧ strip value = value) (.value
    (field ++ " is required, non-blank, and must not have surrounding whitespace"))
  require (value.length ≤ maximum)
    (.value (field ++ " exceeds " ++ toString maximum ++ " characters"))
  require (singleLineRenderSafe value) (.value (field ++ " contains control characters"))
  pure value

def relayMessageMaxChars : ℕ := 16000

def validatePayload (value : String) : Except RelayError String := do
  require (strip value ≠ "") (.value "payload is required and must be non-blank")
  require (value.length ≤ relayMessageMaxChars)
    (.value ("payload exceeds " ++ toString relayMessageMaxChars ++ " Unicode code points"))
  require (renderSafe value) (.value "payload contains unsafe control characters")
  pure value

def redactedOverflow : String :=
  "[REDACTED: payload omitted because sanitization exceeded the Relay limit]"

def storedPayload (redaction : Redaction) (value : String) :
    Except RelayError (String × String) := do
  let raw ← validatePayload value
  let stored := redaction.redactSensitive raw
  pure (raw, if relayMessageMaxChars < stored.length then redactedOverflow else stored)

/-- The check of `RelayService.turn` on an exact delivery. -/
def validateExactDelivery (runtime : Runtime) (deliveryId : String) :
    Except RelayError String := do
  let deliveryId ← opaqueText "exact_delivery_id" 128 deliveryId
  require (runtime = .codex ∧ isHexIdentifier "relay-delivery-" deliveryId)
    (.value "exact_delivery_id requires a canonical Codex delivery ID")
  pure deliveryId

/-- The payload is the stored form of some payload that was sent. -/
def StoredPayload (redaction : Redaction) (payload : String) : Prop :=
  ∃ value raw, storedPayload redaction value = .ok (raw, payload)

/-- The arguments of the operation are such as the service passes on.  A message
id that the service makes itself passes the check of a given one. -/
def RelayOp.Served (redaction : Redaction) : RelayOp → Prop
  | .send request _ =>
    opaqueText "message_id" 128 request.messageId = .ok request.messageId ∧
      opaqueText "sender_session_ref" 255 request.senderSessionRef =
        .ok request.senderSessionRef ∧
      (∀ parent, request.inReplyTo = some parent →
        opaqueText "in_reply_to" 128 parent = .ok parent) ∧
      StoredPayload redaction request.payload
  | .reply request _ => StoredPayload redaction request.payload
  | .turn request _ _ =>
    opaqueText "session_ref" 255 request.sessionRef = .ok request.sessionRef ∧
      ∀ deliveryId, request.exactDeliveryId = some deliveryId →
        validateExactDelivery request.runtime deliveryId = .ok deliveryId
  | .repairApply _ _ _ => False
  | _ => True

/-- A text that can be shown on a line. -/
def Shown (value : String) : Prop := value ≠ "" ∧ Allows singleLineChar value

instance (value : String) : Decidable (Shown value) :=
  inferInstanceAs (Decidable (_ ∧ _))

theorem shown_of_opaqueText {field value result : String} {maximum : ℕ}
    (hvalue : opaqueText field maximum value = .ok result) : Shown value := by
  simp only [opaqueText, bind_eq_ok, require_eq_ok] at hvalue
  obtain ⟨-, hnonblank, -, -, -, hsafe, -⟩ := hvalue
  exact ⟨hnonblank.1, singleLineRenderSafe_iff.mp hsafe⟩

theorem rendered_of_validatePayload {value raw : String}
    (hvalue : validatePayload value = .ok raw) : Rendered raw := by
  simp only [validatePayload, bind_eq_ok, require_eq_ok, pure_eq_ok] at hvalue
  obtain ⟨-, hblank, -, -, -, hsafe, rfl⟩ := hvalue
  refine ⟨?_, renderSafe_iff.mp hsafe⟩
  rintro rfl
  exact hblank (by decide)

theorem StoredPayload.rendered {redaction : Redaction} {payload : String}
    (hpayload : StoredPayload redaction payload) : Rendered payload := by
  obtain ⟨value, raw, hstored⟩ := hpayload
  simp only [storedPayload, bind_eq_ok, pure_eq_ok, Prod.mk.injEq] at hstored
  obtain ⟨checked, hchecked, rfl, rfl⟩ := hstored
  split
  · decide
  · exact rendered_redactSensitive redaction (rendered_of_validatePayload hchecked)

end Validation

section Texts

theorem Shown.append {front text : String} (hfront : Shown front)
    (htext : Allows singleLineChar text) : Shown (front ++ text) := by
  refine ⟨fun hempty => hfront.1 ?_, allows_append.mpr ⟨hfront.2, htext⟩⟩
  have hlist := congrArg String.toList hempty
  rw [String.toList_append, String.toList_empty, List.append_eq_nil_iff] at hlist
  exact String.toList_eq_nil_iff.mp hlist.1

theorem singleLineChar_of_isLowerHex {c : Char} (hhex : isLowerHex c) : singleLineChar c := by
  have hrange : 48 ≤ c.toNat ∧ c.toNat ≤ 57 ∨ 97 ≤ c.toNat ∧ c.toNat ≤ 102 := by
    simp only [isLowerHex, Bool.or_eq_true, Bool.and_eq_true, decide_eq_true_eq] at hhex
    exact hhex
  simp only [singleLineChar, isControl, isSeparator, Bool.not_eq_true', Bool.or_eq_false_iff,
    decide_eq_false_iff_not, Bool.and_eq_false_iff, beq_eq_false_iff_ne]
  omega

theorem allows_hex {text : String} (hhex : text.toList.all isLowerHex) :
    Allows singleLineChar text :=
  allows_iff.mpr fun c hc => singleLineChar_of_isLowerHex (List.all_eq_true.mp hhex c hc)

theorem allows_padded (width : ℕ) (value : ℤ) :
    Allows singleLineChar (Calendar.padded width value) := by
  have hdigits : Allows singleLineChar (toString value) :=
    allows_toString_int (fun c hdigit => singleLineChar_of_isDigit hdigit) (by decide) value
  refine allows_append.mpr ⟨allows_iff.mpr fun c hc => ?_, hdigits⟩
  rw [String.toList_ofList] at hc
  rw [List.eq_of_mem_replicate hc]
  decide

theorem shown_isoformat (instant : ℤ) : Shown (Calendar.isoformat instant) := by
  have hjoin : ∀ {first second : String} (separator : String),
      Allows singleLineChar separator → Allows singleLineChar first →
        Allows singleLineChar second → Allows singleLineChar (first ++ separator ++ second) :=
    fun separator hseparator hfirst hsecond =>
      allows_append.mpr ⟨allows_append.mpr ⟨hfirst, hseparator⟩, hsecond⟩
  have hdate : ∀ year month day, Allows singleLineChar
      (Calendar.padded 4 year ++ "-" ++ Calendar.padded 2 month ++ "-" ++
        Calendar.padded 2 day) := fun year month day =>
    hjoin "-" (by decide) (hjoin "-" (by decide) (allows_padded 4 year) (allows_padded 2 month))
      (allows_padded 2 day)
  have htime : ∀ hour minute second, Allows singleLineChar
      (Calendar.padded 2 hour ++ ":" ++ Calendar.padded 2 minute ++ ":" ++
        Calendar.padded 2 second) := fun hour minute second =>
    hjoin ":" (by decide) (hjoin ":" (by decide) (allows_padded 2 hour) (allows_padded 2 minute))
      (allows_padded 2 second)
  have hdateShown : ∀ year month day, Shown
      (Calendar.padded 4 year ++ "-" ++ Calendar.padded 2 month ++ "-" ++
        Calendar.padded 2 day ++ "T") := fun year month day =>
    ⟨append_ne_empty _ (by decide), allows_append.mpr ⟨hdate year month day, by decide⟩⟩
  unfold Calendar.isoformat
  refine ((hdateShown _ _ _).append (htime _ _ _)).append ?_
  split
  · decide
  · exact allows_append.mpr ⟨by decide, allows_padded 6 _⟩

end Texts

section Invariant

/-- The texts of the message that a rendering shows. -/
structure RelayMessage.Presentable (message : RelayMessage) : Prop where
  id : Shown message.id
  sender : Shown message.senderSessionRef
  payload : Rendered message.payload
  parent : ∀ parent, message.inReplyTo = some parent → Shown parent

/-- The delivery goes to a registered session of its runtime. -/
def Addressed (store : RelayStore) (delivery : RelayDelivery) : Prop :=
  ∃ endpointId session, delivery.recipientEndpointId = some endpointId ∧
    store.sessions.get endpointId = some session ∧ session.runtime = delivery.recipientRuntime

/-- A session reference that the service accepts. -/
def ValidRef (sessionRef : String) : Prop :=
  opaqueText "session_ref" 255 sessionRef = .ok sessionRef

structure StorePresentable (host : Host) (store : RelayStore) : Prop where
  sessions : ∀ endpointId session, store.sessions.get endpointId = some session →
    ValidRef session.sessionRef
  messages : ∀ messageId message, store.messages.get messageId = some message →
    message.Presentable
  deliveries : ∀ deliveryId delivery, store.deliveries.get deliveryId = some delivery →
    Addressed store delivery ∧ ∃ draw < store.drawn,
      deliveryId = "relay-delivery-" ++ host.uuid4Hex draw

theorem StorePresentable.empty (host : Host) : StorePresentable host RelayStore.empty where
  sessions _ _ hget := nomatch hget
  messages _ _ hget := nomatch hget
  deliveries _ _ hget := nomatch hget

variable {host : Host} {now : ℤ} {before middle after : RelayStore}

/-- Sessions may be added and change, but only such with a valid reference. -/
def RefsValid (before after : RelayStore) : Prop :=
  ∀ endpointId session, after.sessions.get endpointId = some session →
    (∃ old, before.sessions.get endpointId = some old ∧ session.sessionRef = old.sessionRef) ∨
      ValidRef session.sessionRef

theorem RefsValid.of_eq (hsessions : after.sessions = before.sessions) :
    RefsValid before after :=
  fun _ session hget => Or.inl ⟨session, hsessions ▸ hget, rfl⟩

theorem RefsValid.of_mapped (hmapped : SessionsMapped before after) :
    RefsValid before after := by
  obtain ⟨change, hscope, hafter⟩ := hmapped
  intro endpointId session hget
  rw [hafter] at hget
  obtain ⟨old, hold, rfl⟩ := Option.map_eq_some_iff.mp hget
  exact Or.inl ⟨old, hold, (hscope old).sessionRef⟩

theorem RefsValid.trans (hfirst : RefsValid before middle)
    (hsecond : RefsValid middle after) : RefsValid before after := by
  intro endpointId session hget
  rcases hsecond endpointId session hget with ⟨old, hold, href⟩ | hshown
  · rcases hfirst endpointId old hold with ⟨oldest, holdest, holdRef⟩ | hshown
    · exact Or.inl ⟨oldest, holdest, href.trans holdRef⟩
    · exact Or.inr (href ▸ hshown)
  · exact Or.inr hshown

/-- Nothing is written but the states of deliveries and of sessions. -/
structure Steady (before after : RelayStore) : Prop where
  kept : ∀ deliveryId changed, after.deliveries.get deliveryId = some changed →
    ∃ delivery, before.deliveries.get deliveryId = some delivery ∧
      changed.recipientEndpointId = delivery.recipientEndpointId ∧
      changed.recipientRuntime = delivery.recipientRuntime
  messages : after.messages = before.messages
  sessions : SessionsKept before after
  shown : RefsValid before after
  drawn : before.drawn ≤ after.drawn

theorem Steady.refl (store : RelayStore) : Steady store store where
  kept _ changed hget := ⟨changed, hget, rfl, rfl⟩
  messages := rfl
  sessions := SessionsKept.refl store
  shown := .of_eq rfl
  drawn := le_rfl

theorem Steady.trans (hfirst : Steady before middle) (hsecond : Steady middle after) :
    Steady before after where
  kept deliveryId changed hget := by
    obtain ⟨between, hbetween, hendpoint, hruntime⟩ := hsecond.kept deliveryId changed hget
    obtain ⟨delivery, hdelivery, hfirstEndpoint, hfirstRuntime⟩ :=
      hfirst.kept deliveryId between hbetween
    exact ⟨delivery, hdelivery, hendpoint.trans hfirstEndpoint, hruntime.trans hfirstRuntime⟩
  messages := hsecond.messages.trans hfirst.messages
  sessions := hfirst.sessions.trans hsecond.sessions
  shown := hfirst.shown.trans hsecond.shown
  drawn := hfirst.drawn.trans hsecond.drawn

theorem Quiet.steady (hquiet : Quiet before after) (hshown : RefsValid before after) :
    Steady before after where
  kept _ changed hget := ⟨changed, hquiet.deliveries ▸ hget, rfl, rfl⟩
  messages := hquiet.messages
  sessions := hquiet.sessions
  shown := hshown
  drawn := hquiet.drawn

theorem Sweeps.steady (hsweeps : Sweeps now before after) : Steady before after where
  kept deliveryId changed hget := by
    cases hbefore : before.deliveries.get deliveryId with
    | none =>
      rw [hsweeps.absent deliveryId hbefore] at hget
      cases hget
    | some delivery =>
      rcases hsweeps.deliveries deliveryId delivery hbefore with hsame | ⟨-, hexpired⟩
      · obtain rfl := Option.eq_some_unique hsame hget
        exact ⟨delivery, rfl, rfl, rfl⟩
      · obtain rfl := Option.eq_some_unique hexpired hget
        exact ⟨delivery, rfl, rfl, rfl⟩
  messages := hsweeps.messages
  sessions := SessionsKept.of_eq hsweeps.sessions
  shown := .of_eq hsweeps.sessions
  drawn := hsweeps.drawn.ge

theorem Addressed.kept {delivery changed : RelayDelivery} (haddressed : Addressed before delivery)
    (hsessions : SessionsKept before after)
    (hendpoint : changed.recipientEndpointId = delivery.recipientEndpointId)
    (hruntime : changed.recipientRuntime = delivery.recipientRuntime) :
    Addressed after changed := by
  obtain ⟨endpointId, session, hrecipient, hget, hsame⟩ := haddressed
  obtain ⟨kept, hkept, hkeptRuntime, -⟩ := hsessions endpointId session hget
  exact ⟨endpointId, kept, hendpoint.trans hrecipient, hkept,
    (hkeptRuntime.trans hsame).trans hruntime.symm⟩

theorem RefsValid.sessions (hshown : RefsValid before after)
    (hbefore : ∀ endpointId session, before.sessions.get endpointId = some session →
      ValidRef session.sessionRef) (endpointId : String) (session : RelaySession)
    (hget : after.sessions.get endpointId = some session) : ValidRef session.sessionRef := by
  rcases hshown endpointId session hget with ⟨old, hold, href⟩ | hshown
  · exact href ▸ hbefore endpointId old hold
  · exact hshown

theorem Steady.presentable (hsteady : Steady before after)
    (hstore : StorePresentable host before) : StorePresentable host after where
  sessions := hsteady.shown.sessions hstore.sessions
  messages messageId message hget := by
    rw [hsteady.messages] at hget
    exact hstore.messages messageId message hget
  deliveries deliveryId changed hget := by
    obtain ⟨delivery, hdelivery, hendpoint, hruntime⟩ := hsteady.kept deliveryId changed hget
    obtain ⟨haddressed, draw, hdraw, hid⟩ := hstore.deliveries deliveryId delivery hdelivery
    exact ⟨haddressed.kept hsteady.sessions hendpoint hruntime, draw,
      hdraw.trans_le hsteady.drawn, hid⟩

theorem Added.presentable {message : RelayMessage} {target : RelaySession}
    (hadded : Added host message target before after) (hmessage : message.Presentable)
    (htarget : before.sessions.get target.id = some target)
    (hstore : StorePresentable host before) : StorePresentable host after where
  sessions endpointId session hget := by
    rw [hadded.sessions] at hget
    exact hstore.sessions endpointId session hget
  messages messageId found hget := by
    rw [hadded.messages] at hget
    split at hget
    · exact Option.some.inj hget ▸ hmessage
    · exact hstore.messages messageId found hget
  deliveries deliveryId delivery hget := by
    rw [hadded.deliveries] at hget
    rw [hadded.drawn]
    split at hget
    · next hid =>
        cases hget
        exact ⟨⟨target.id, target, rfl, hadded.sessions ▸ htarget, rfl⟩, before.drawn,
          Nat.lt_succ_self _, hid⟩
    · obtain ⟨haddressed, draw, hdraw, hid⟩ := hstore.deliveries deliveryId delivery hget
      exact ⟨haddressed.kept (SessionsKept.of_eq hadded.sessions) rfl rfl, draw,
        hdraw.trans (Nat.lt_succ_self _), hid⟩

theorem Steady.of_evolves (hevolves : Evolves host now none before after)
    (hendpoint : ∀ deliveryId delivery changed,
      before.deliveries.get deliveryId = some delivery →
        after.deliveries.get deliveryId = some changed →
          changed.recipientEndpointId = delivery.recipientEndpointId)
    (hshown : RefsValid before after) : Steady before after where
  kept deliveryId changed hget := by
    rcases hevolves.row_cases hget with ⟨delivery, hbefore, hchange⟩ | ⟨hnew, ⟨message, hafter⟩, -⟩
    · exact ⟨delivery, hbefore, hendpoint deliveryId delivery changed hbefore hget,
        hchange.sameAddress.2.1⟩
    · rw [hevolves.messages_eq, hnew] at hafter
      cases hafter
  messages := hevolves.messages_eq
  sessions := hevolves.sessions
  shown := hshown
  drawn := hevolves.drawn

end Invariant

section Steps

variable {host : Host} {now : ℤ} {store after : RelayStore}

variable {clock : ClaimClock} {wake : Option OpenCodeWake} {response : TurnResponse}

theorem SessionsMapped.refl (store : RelayStore) : SessionsMapped store store :=
  ⟨id, fun _ => ⟨rfl, rfl, rfl⟩, fun endpointId => by rw [Option.map_id, id]⟩

theorem mapped_refreshed (store : RelayStore) (endpointId : String)
    {change : RelaySession → RelaySession} (hchange : ∀ session, Refreshed session (change session)) :
    SessionsMapped store (store.modifySession endpointId change) :=
  sessionsMapped_of_modify rfl (fun session => (hchange session).id) fun session =>
    ⟨(hchange session).containerRef, (hchange session).runtime, (hchange session).sessionRef⟩

theorem SessionWritten.mapped (hwritten : SessionWritten store after) :
    SessionsMapped store after := by
  cases hwritten with
  | woken => exact SessionsMapped.refl store
  | refreshed _ _ _ hchange => exact mapped_refreshed store _ hchange
  | closed => exact sessionsMapped_of_modify rfl (fun _ => rfl) fun _ => ⟨rfl, rfl, rfl⟩
  | named row newAlias =>
    refine sessionsMapped_of_updateAll (id_nameSession row.id newAlias) (fun session => ?_) rfl
    obtain ⟨-, hcontainer, hruntime, href⟩ := nameSession_scope row.id newAlias session
    exact ⟨hcontainer, hruntime, href⟩
  | unnamed => exact sessionsMapped_of_modify rfl (fun _ => rfl) fun _ => ⟨rfl, rfl, rfl⟩

variable {request : TurnRequest}

theorem resolveScope_refs {registered : Option RelaySession} {generation : ℕ}
    (hscope : resolveScope request store = .ok (after, registered, generation)) :
    RefsValid store after := by
  cases resolveScope_eq_ok hscope with
  | moved _ _ _ _ _ _ _ hmoved =>
    intro endpointId session hget
    rw [hmoved.get_sessions] at hget
    split at hget
    · obtain ⟨old, hold, rfl⟩ := Option.map_eq_some_iff.mp hget
      exact Or.inl ⟨old, hold, rfl⟩
    · exact Or.inl ⟨session, hget, rfl⟩
  | _ => exact .of_eq rfl

theorem admitSession_refs {registered : Option RelaySession} {generation : ℕ}
    {admission : Admission}
    (hrequest : request.registerSession = true → ValidRef request.sessionRef)
    (hadmitted : admitSession host request now registered generation store =
      .ok (after, admission)) : RefsValid store after := by
  refine admitSession_cases hadmitted (.of_eq rfl)
    (fun sessions _ hregister hinsert endpointId session hget => ?_)
    fun _ _ hchange => .of_mapped (mapped_refreshed store _ hchange)
  change sessions.get endpointId = some session at hget
  rw [Table.get_insertNew hinsert] at hget
  split at hget
  · exact Or.inr (Option.some.inj hget ▸ hrequest hregister)
  · exact Or.inl ⟨session, hget, rfl⟩

theorem turnInScope_refs (hrequest : request.registerSession = true → ValidRef request.sessionRef)
    (hturn : turnInScope host request clock now wake store = .ok (after, response)) :
    RefsValid store after :=
  turnInScope_related RefsValid.trans resolveScope_refs (admitSession_refs hrequest)
    (fun hclaims => .of_eq (claimEligible_registry hclaims).sessions) hturn

theorem turnInScope_endpoint
    (hturn : turnInScope host request clock now wake store = .ok (after, response))
    {deliveryId : String} {delivery changed : RelayDelivery}
    (hbefore : store.deliveries.get deliveryId = some delivery)
    (hafter : after.deliveries.get deliveryId = some changed) :
    changed.recipientEndpointId = delivery.recipientEndpointId := by
  obtain ⟨found, hfound, hchange⟩ := turnInScope_turnChange hturn hbefore
  obtain rfl := Option.eq_some_unique hfound hafter
  exact hchange.recipientEndpointId

section

variable (hlease : request.leaseSeconds = relayClaimLeaseSeconds)
  (hrequest : request.registerSession = true → ValidRef request.sessionRef)
include hlease hrequest

theorem turnInScope_steady
    (hturn : turnInScope host request clock now wake store = .ok (after, response)) :
    Steady store after :=
  Steady.of_evolves (turnInScope_evolves hlease hturn)
    (fun _ _ _ hbefore hafter => turnInScope_endpoint hturn hbefore hafter)
    (turnInScope_refs hrequest hturn)

theorem relayTurn_steady :
    Steady store (relayTurn host request clock now store).1 :=
  relayTurn_cases (Steady.refl store) (turnInScope_steady hlease hrequest)
    (fun _ hcontext => (openCodeContext_sweeps hcontext).steady)
    fun _ hcontext hturn =>
      (openCodeContext_sweeps hcontext).steady.trans (turnInScope_steady hlease hrequest hturn)

end

theorem steady_markDelivered {delivery : RelayDelivery}
    (hget : store.deliveries.get delivery.id = some delivery) :
    Steady store (store.modifyDelivery delivery.id fun row => row.markDelivered now) where
  kept deliveryId changed hafter := by
    rw [get_markDelivered] at hafter
    split at hafter
    · obtain ⟨old, hold, rfl⟩ := Option.map_eq_some_iff.mp hafter
      exact ⟨old, hold, rfl, rfl⟩
    · exact ⟨changed, hafter, rfl, rfl⟩
  messages := rfl
  sessions := SessionsKept.refl store
  shown := .of_eq rfl
  drawn := le_rfl

theorem AckOutcome.steady {deliveryId : String} {accepts : RelayDelivery → Prop}
    {outcome : RelayStore × Except RelayError AckResult}
    (houtcome : AckOutcome now store deliveryId accepts outcome) : Steady store outcome.1 := by
  cases houtcome with
  | refused => exact Steady.refl store
  | expired hget hmessage hstate hexpired =>
    obtain rfl := Table.key_of_get hget
    exact (expireClaim_sweeps hget hmessage hstate hexpired).steady
  | duplicate => exact Steady.refl store
  | finished hget =>
    obtain rfl := Table.key_of_get hget
    exact steady_markDelivered hget

theorem relayMessageStatus_steady (messageId : String) (offset pageSize : Option ℕ) :
    Steady store (relayMessageStatus host messageId offset pageSize now store).1 := by
  refine transaction_related (Steady.refl store) fun after view hbody => ?_
  simp only [bind_eq_ok, orRaise_eq_ok] at hbody
  obtain ⟨message, -, hstatus⟩ := hbody
  exact (relayStatusInSession_eq_ok hstatus).1.steady

end Steps

section Reached

variable {host : Host} {now : ℤ} {store after : RelayStore} {redaction : Redaction}

theorem get_of_relayTarget {recipientRuntime : Option Runtime} {kind : RecipientKind}
    {value : String} {target : RelaySession}
    (htarget : relayTarget store recipientRuntime kind value = .ok target) :
    store.sessions.get target.id = some target := by
  simp only [relayTarget, bind_eq_ok, orRaise_eq_ok, require_eq_ok, pure_eq_ok] at htarget
  obtain ⟨found, hfound, session, hsession, -, -, -, -, rfl⟩ := htarget
  subst hsession
  cases kind with
  | endpoint =>
    simp only [findTarget, pure_eq_ok] at hfound
    obtain rfl : session.id = value := Table.key_of_get hfound
    exact hfound
  | byAlias =>
    simp only [findTarget, bind_eq_ok, orRaise_eq_ok, require_eq_ok, pure_eq_ok] at hfound
    obtain ⟨binding, -, endpointId, -, -, -, hget⟩ := hfound
    obtain rfl : session.id = endpointId := Table.key_of_get hget
    exact hget
  | session =>
    simp only [findTarget, bind_eq_ok, require_eq_ok, pure_eq_ok] at hfound
    obtain ⟨-, -, hhead⟩ := hfound
    exact Table.get_of_mem (List.mem_filter.mp (List.mem_of_mem_head? hhead)).1

theorem relaySend_presentable {request : SendRequest}
    (hserved : (RelayOp.send request now).Served redaction)
    (hstore : StorePresentable host store) :
    StorePresentable host (relaySend host request now store).1 := by
  obtain ⟨hmessageId, hsender, hparent, hpayload⟩ := hserved
  have houtcome := @relaySend_outcome host now store request
  generalize relaySend host request now store = outcome at houtcome
  cases houtcome with
  | refused => exact hstore
  | repeated _ _ _ hsweeps => exact hsweeps.steady.presentable hstore
  | @created sender target added after view _ _ htarget hadded hsweeps =>
    have hmessage : (sentMessage request now sender).Presentable :=
      ⟨shown_of_opaqueText hmessageId, shown_of_opaqueText hsender, hpayload.rendered,
        fun parent hsome => shown_of_opaqueText (hparent parent hsome)⟩
    exact hsweeps.steady.presentable
      (hadded.presentable hmessage (get_of_relayTarget htarget) hstore)

/-- A digest is written in hexadecimal digits. -/
def Host.DigestsHex (host : Host) : Prop := ∀ text, (host.sha256Hex text).toList.all isLowerHex

theorem shown_replyId (hdigests : host.DigestsHex) (deliveryId : String) :
    Shown (replyId host deliveryId) :=
  Shown.append (by decide) (allows_hex (hdigests deliveryId))

theorem relayReplyAtomic_presentable {request : ReplyRequest} (hdigests : host.DigestsHex)
    (hserved : (RelayOp.reply request now).Served redaction)
    (hstore : StorePresentable host store) :
    StorePresentable host
      (relayReplyAtomic host (serviceReply host request) now store).1 := by
  have houtcome := @relayReplyAtomic_outcome host now store (serviceReply host request)
  generalize relayReplyAtomic host (serviceReply host request) now store = outcome at houtcome
  cases houtcome with
  | refused => exact hstore
  | expired hget hmessage hstate hexpired =>
    rw [← Table.key_of_get hget, key_delivery] at hget
    exact (expireClaim_sweeps hget hmessage hstate hexpired).steady.presentable hstore
  | @answered delivery message after view hget hmessage hcheck hanswered hview =>
    rw [← Table.key_of_get hget, key_delivery] at hget
    cases hanswered with
    | repeated _ _ hsweeps => exact hsweeps.steady.presentable hstore
    | @created sender recipient added hsender hrecipient hadded hsweeps =>
      have hsenderGet := (RelayStore.relaySessionByEndpoint_eq_some hsender).2
      have hrecipientGet := (RelayStore.relaySessionByEndpoint_eq_some hrecipient).2
      have hreply : (replyMessage (serviceReply host request) now message sender
          recipient).Presentable := by
        refine ⟨shown_replyId hdigests _, shown_of_opaqueText (hstore.sessions _ _ hsenderGet),
          StoredPayload.rendered hserved, fun parent hparent => ?_⟩
        cases hparent
        exact (hstore.messages _ _ hmessage).id
      have hfinished : Steady added (finishReplied now delivery added) := by
        unfold finishReplied
        split
        · exact steady_markDelivered (hadded.get_of_some hget)
        · exact Steady.refl added
      exact (hfinished.trans hsweeps.steady).presentable
        (hadded.presentable hreply hrecipientGet hstore)

theorem RelayOp.step_presentable {op : RelayOp} (hdigests : host.DigestsHex)
    (hserved : op.Served redaction) (hstore : StorePresentable host store) :
    StorePresentable host (op.step host store) := by
  have hwrites (hsession : op.OnSession) : StorePresentable host (op.step host store) := by
    have hwritten := @RelayOp.step_written host store op hsession
    exact (hwritten.quiet.steady (.of_mapped hwritten.mapped)).presentable hstore
  cases op with
  | send request now => exact relaySend_presentable hserved hstore
  | reply request now => exact relayReplyAtomic_presentable hdigests hserved hstore
  | turn request clock now =>
    have hshown : (serviceTurn request).registerSession = true →
        ValidRef (serviceTurn request).sessionRef := fun _ => hserved.1
    exact (relayTurn_steady rfl hshown).presentable hstore
  | openCodeWake | closeSession | nameSession | markActive | markUnreachable =>
    exact hwrites trivial
  | openCodeContext request maxChars now =>
    exact (relayTurn_steady rfl fun hregister => (Bool.false_ne_true hregister).elim).presentable hstore
  | ack deliveryId claimToken now =>
    exact (relayAck_outcome deliveryId claimToken).steady.presentable hstore
  | ackByReceipt deliveryId receipt now =>
    exact (relayAckByReceipt_outcome host deliveryId receipt).steady.presentable hstore
  | messageStatus messageId offset pageSize now =>
    exact (relayMessageStatus_steady messageId offset pageSize).presentable hstore
  | repairApply manifest evidence now => exact hserved.elim

theorem reached_presentable {ops : List RelayOp} (hdigests : host.DigestsHex)
    (hserved : ∀ op ∈ ops, op.Served redaction) : StorePresentable host (reached host ops) :=
  (Along.of_forall hserved).invariant (StorePresentable.empty host)
    fun _ _ hop hstore => RelayOp.step_presentable hdigests hop hstore

end Reached

end Pallium.Relay
