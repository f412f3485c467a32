import Pallium.Relay.Writes

/-!
# What an operation does to deliveries and messages

`DeliveryChange` lists the ways in which one operation can change one delivery
row, each with what the operation checked before it.  `Evolves` says that an
operation changes every row in one of these ways, keeps all messages and
sessions, and at most writes one message together with its one delivery, which
nobody has claimed.  Every later result about deliveries and messages rests on
`RelayOp.step_evolves` alone.
-/

namespace Pallium.Relay

open Pallium.Transaction

/-- The claim token made from the random identifier of the given draw. -/
def claimTokenOf (host : Host) (draw : ℕ) : String := "relay-claim-" ++ host.uuid4Hex draw

/-- The changes which an operation at clock reading `now` makes to a delivery. -/
inductive DeliveryChange (host : Host) (before after : RelayStore) (now : ℤ)
    (delivery : RelayDelivery) : RelayDelivery → Prop
  | same : DeliveryChange host before after now delivery delivery
  | expired (hdue : after.due now delivery) :
      DeliveryChange host before after now delivery delivery.markExpired
  | claimed {message : RelayMessage} {draw : ℕ} {codexWakeGeneration : Option ℤ}
      (hclaimable : claimable now delivery)
      (hmessage : after.messages.get delivery.messageId = some message)
      (hlive : now < message.expiresAt)
      (hdraw : before.drawn ≤ draw) (hdrawn : draw < after.drawn) :
      DeliveryChange host before after now delivery
        (delivery.claim (claimTokenOf host draw) now (now + seconds relayClaimLeaseSeconds)
          codexWakeGeneration)
  | delivered {message : RelayMessage}
      (hstate : delivery.state = .claimed) (hlease : leaseLive now delivery)
      (hmessage : after.messages.get delivery.messageId = some message)
      (hlive : now < message.expiresAt) :
      DeliveryChange host before after now delivery (delivery.markDelivered now)
  | suppressed {clearClaim : Bool}
      (hopen : delivery.state = .pending ∧ clearClaim = false ∨
        claimRunOut now delivery ∧ clearClaim = true) :
      DeliveryChange host before after now delivery (delivery.suppress clearClaim)
  | adopted {endpointId : String} (hpending : delivery.state = .pending) :
      DeliveryChange host before after now delivery (delivery.adopt endpointId)

/-- A delivery that has been written and perhaps expired, but never claimed. -/
def Newborn (delivery : RelayDelivery) : Prop :=
  ∃ target, delivery = RelayDelivery.fresh delivery.id delivery.messageId target ∨
    delivery = (RelayDelivery.fresh delivery.id delivery.messageId target).markExpired

/-- Every session remains, under the same runtime and session reference. -/
def SessionsKept (before after : RelayStore) : Prop :=
  ∀ endpointId session, before.sessions.get endpointId = some session →
    ∃ kept, after.sessions.get endpointId = some kept ∧
      kept.runtime = session.runtime ∧ kept.sessionRef = session.sessionRef

/-- The message names the endpoint of a registered session as its sender. -/
def SentBy (store : RelayStore) (message : RelayMessage) : Prop :=
  ∃ endpointId sender, message.senderEndpointId = some endpointId ∧
    store.sessions.get endpointId = some sender ∧
    sender.runtime = message.senderRuntime ∧ sender.sessionRef = message.senderSessionRef

/-- What is written besides changes: nothing, or one message under the id
`writes` together with its one delivery. -/
inductive Births (writes : Option String) (before after : RelayStore) : Prop
  | nothing (hmessages : after.messages = before.messages)
      (hdeliveries : ∀ deliveryId, before.deliveries.get deliveryId = none →
        after.deliveries.get deliveryId = none)
  | one {message : RelayMessage} {delivery : RelayDelivery}
      (hwrites : writes = some message.id)
      (hnewMessage : before.messages.get message.id = none)
      (hmessages : ∀ messageId, after.messages.get messageId =
        if messageId = message.id then some message else before.messages.get messageId)
      (hsender : SentBy after message)
      (hnewDelivery : before.deliveries.get delivery.id = none)
      (hdelivery : after.deliveries.get delivery.id = some delivery)
      (hmessageId : delivery.messageId = message.id) (hnewborn : Newborn delivery)
      (hothers : ∀ otherId, otherId ≠ delivery.id → before.deliveries.get otherId = none →
        after.deliveries.get otherId = none)

/-- What one operation at clock reading `now` does, if it may write a message
under the id `writes`. -/
structure Evolves (host : Host) (now : ℤ) (writes : Option String)
    (before after : RelayStore) : Prop where
  kept : ∀ deliveryId delivery, before.deliveries.get deliveryId = some delivery →
    ∃ changed, after.deliveries.get deliveryId = some changed ∧
      DeliveryChange host before after now delivery changed
  births : Births writes before after
  sessions : SessionsKept before after
  drawn : before.drawn ≤ after.drawn

section Kept

variable {before middle after : RelayStore} {change : RelaySession → RelaySession}

theorem SessionsKept.refl (store : RelayStore) : SessionsKept store store :=
  fun _ session hget => ⟨session, hget, rfl, rfl⟩

theorem SessionsKept.of_eq (hsessions : after.sessions = before.sessions) :
    SessionsKept before after :=
  fun _ session hget => ⟨session, by rw [hsessions, hget], rfl, rfl⟩

theorem SessionsKept.trans (hfirst : SessionsKept before middle)
    (hsecond : SessionsKept middle after) : SessionsKept before after := by
  intro endpointId session hget
  obtain ⟨kept, hkept, hruntime, href⟩ := hfirst endpointId session hget
  obtain ⟨last, hlast, hlastRuntime, hlastRef⟩ := hsecond endpointId kept hkept
  exact ⟨last, hlast, hlastRuntime.trans hruntime, hlastRef.trans href⟩

theorem SessionsKept.of_updateAll (hsessions : after.sessions = before.sessions.updateAll change)
    (hchange : ∀ session, (change session).id = session.id ∧
      (change session).runtime = session.runtime ∧
      (change session).sessionRef = session.sessionRef) : SessionsKept before after := by
  intro endpointId session hget
  refine ⟨change session, ?_, (hchange session).2⟩
  rw [hsessions, Table.get_updateAll _ fun session => (hchange session).1, hget, Option.map_some]

theorem SessionsKept.of_modify {endpointId : String}
    (hsessions : after.sessions = before.sessions.modify endpointId change)
    (hchange : ∀ session, (change session).id = session.id ∧
      (change session).runtime = session.runtime ∧
      (change session).sessionRef = session.sessionRef) : SessionsKept before after := by
  refine SessionsKept.of_updateAll hsessions fun session => ?_
  split
  · exact hchange session
  · exact ⟨rfl, rfl, rfl⟩

theorem SentBy.kept {message : RelayMessage} (hsentBy : SentBy before message)
    (hsessions : SessionsKept before after) : SentBy after message := by
  obtain ⟨endpointId, sender, hsender, hget, hruntime, href⟩ := hsentBy
  obtain ⟨kept, hkept, hkeptRuntime, hkeptRef⟩ := hsessions endpointId sender hget
  exact ⟨endpointId, kept, hsender, hkept, hkeptRuntime.trans hruntime, hkeptRef.trans href⟩

end Kept

section Composition

variable {host : Host} {now : ℤ} {before middle after : RelayStore}

variable {delivery : RelayDelivery}

theorem DeliveryChange.earlier {changed : RelayDelivery}
    (hchange : DeliveryChange host middle after now delivery changed)
    (hdrawn : before.drawn ≤ middle.drawn) :
    DeliveryChange host before after now delivery changed := by
  cases hchange with
  | same => exact .same
  | expired hdue => exact .expired hdue
  | claimed hclaimable hmessage hlive hdraw hlast =>
    exact .claimed hclaimable hmessage hlive (hdrawn.trans hdraw) hlast
  | delivered hstate hlease hmessage hlive => exact .delivered hstate hlease hmessage hlive
  | suppressed hopen => exact .suppressed hopen
  | adopted hpending => exact .adopted hpending

variable {writes : Option String}

theorem Evolves.born (hevolves : Evolves host now writes before after) (deliveryId : String)
    (delivery : RelayDelivery) (hnone : before.deliveries.get deliveryId = none)
    (hsome : after.deliveries.get deliveryId = some delivery) : Newborn delivery := by
  cases hevolves.births with
  | nothing _ hdeliveries =>
    rw [hdeliveries deliveryId hnone] at hsome
    cases hsome
  | @one message born _ _ _ _ _ hdelivery _ hnewborn hothers =>
    by_cases hid : deliveryId = born.id
    · rw [hid, hdelivery] at hsome
      exact Option.some.inj hsome ▸ hnewborn
    · rw [hothers deliveryId hid hnone] at hsome
      cases hsome

theorem Evolves.messages (hevolves : Evolves host now writes before after) (messageId : String)
    (message : RelayMessage) (hget : before.messages.get messageId = some message) :
    after.messages.get messageId = some message := by
  cases hevolves.births with
  | nothing hmessages => rw [hmessages, hget]
  | one _ hnewMessage hmessages =>
    rw [hmessages, if_neg, hget]
    rintro rfl
    rw [hnewMessage] at hget
    cases hget

theorem Evolves.of_frame (hdeliveries : after.deliveries = before.deliveries)
    (hmessages : after.messages = before.messages) (hsessions : SessionsKept before after)
    (hdrawn : before.drawn ≤ after.drawn) : Evolves host now writes before after where
  kept deliveryId delivery hget := ⟨delivery, by rw [hdeliveries, hget], .same⟩
  births := .nothing hmessages fun deliveryId hnone => by rw [hdeliveries, hnone]
  sessions := hsessions
  drawn := hdrawn

variable (store : RelayStore) {deliveryId : String}

theorem Evolves.refl : Evolves host now writes store store :=
  Evolves.of_frame rfl rfl (SessionsKept.refl store) le_rfl

theorem Evolves.of_frame_left (hdeliveries : middle.deliveries = before.deliveries)
    (hmessages : middle.messages = before.messages) (hsessions : SessionsKept before middle)
    (hdrawn : before.drawn ≤ middle.drawn) (hevolves : Evolves host now writes middle after) :
    Evolves host now writes before after where
  kept deliveryId delivery hget := by
    rw [← hdeliveries] at hget
    obtain ⟨changed, hchanged, hchange⟩ := hevolves.kept deliveryId delivery hget
    exact ⟨changed, hchanged, hchange.earlier hdrawn⟩
  births := by
    cases hevolves.births with
    | nothing hkept hnone => exact .nothing (hkept.trans hmessages) (hdeliveries ▸ hnone)
    | one hwrites hnewMessage hkept hsender hnewDelivery hdelivery hmessageId hnewborn hothers =>
      rw [hmessages] at hnewMessage hkept
      rw [hdeliveries] at hnewDelivery hothers
      exact .one hwrites hnewMessage hkept hsender hnewDelivery hdelivery hmessageId hnewborn
        hothers
  sessions := hsessions.trans hevolves.sessions
  drawn := hdrawn.trans hevolves.drawn

/-- The open deliveries of expired messages among `wanted` are marked expired. -/
structure Sweeps (now : ℤ) (before after : RelayStore) : Prop where
  deliveries : ∀ deliveryId delivery, before.deliveries.get deliveryId = some delivery →
    after.deliveries.get deliveryId = some delivery ∨
      after.due now delivery ∧ after.deliveries.get deliveryId = some delivery.markExpired
  absent : ∀ deliveryId, before.deliveries.get deliveryId = none →
    after.deliveries.get deliveryId = none
  messages : after.messages = before.messages
  sessions : after.sessions = before.sessions
  drawn : after.drawn = before.drawn

theorem Sweeps.get_of_live (hsweeps : Sweeps now before after)
    (hget : after.deliveries.get deliveryId = some delivery)
    (hlive : delivery.state ≠ .expired) : before.deliveries.get deliveryId = some delivery := by
  cases hbefore : before.deliveries.get deliveryId with
  | none =>
    rw [hsweeps.absent deliveryId hbefore] at hget
    cases hget
  | some found =>
    rcases hsweeps.deliveries deliveryId found hbefore with hsame | ⟨-, hexpired⟩
    · exact hsame.symm.trans hget
    · obtain rfl := Option.eq_some_unique hexpired hget
      exact absurd rfl hlive

theorem Sweeps.refl : Sweeps now store store where
  deliveries _ _ hget := Or.inl hget
  absent _ hnone := hnone
  messages := rfl
  sessions := rfl
  drawn := rfl

theorem sweeps_sweepExpired : Sweeps now store (store.sweepExpired now) where
  deliveries deliveryId delivery hget := by
    rw [RelayStore.get_sweepExpired, hget, Option.map_some]
    split
    · next hdue => exact Or.inr ⟨hdue, rfl⟩
    · exact Or.inl rfl
  absent deliveryId hnone := by rw [RelayStore.get_sweepExpired, hnone, Option.map_none]
  messages := rfl
  sessions := rfl
  drawn := rfl

theorem sweeps_sweepMessage (messageId : String) :
    Sweeps now store (store.sweepMessage messageId now) where
  deliveries deliveryId delivery hget := by
    rw [RelayStore.get_sweepMessage, hget, Option.map_some]
    split
    · next hdue =>
        rw [Bool.and_eq_true] at hdue
        exact Or.inr ⟨hdue.2, rfl⟩
    · exact Or.inl rfl
  absent deliveryId hnone := by rw [RelayStore.get_sweepMessage, hnone, Option.map_none]
  messages := rfl
  sessions := rfl
  drawn := rfl

theorem sweeps_markExpired {store : RelayStore}
    (hget : store.deliveries.get deliveryId = some delivery) (hdue : store.due now delivery) :
    Sweeps now store (store.modifyDelivery deliveryId RelayDelivery.markExpired) where
  deliveries otherId other hother := by
    by_cases hid : otherId = deliveryId
    · subst hid
      rw [hget] at hother
      cases hother
      refine Or.inr ⟨hdue, ?_⟩
      rw [RelayStore.modifyDelivery, Table.get_modify_self _ _ (by simp), hget, Option.map_some]
    · refine Or.inl ?_
      rw [RelayStore.modifyDelivery, Table.get_modify_of_ne _ (by simp) hid, hother]
  absent otherId hnone := by
    rw [RelayStore.modifyDelivery, Table.get_modify _ _ (by simp), hnone]
    split <;> rfl
  messages := rfl
  sessions := rfl
  drawn := rfl

theorem Sweeps.get_eq_none (hsweeps : Sweeps now before after)
    (hnone : after.deliveries.get deliveryId = none) : before.deliveries.get deliveryId = none := by
  cases hbefore : before.deliveries.get deliveryId with
  | none => rfl
  | some delivery =>
    rcases hsweeps.deliveries deliveryId delivery hbefore with hsame | ⟨-, hexpired⟩
    · rw [hnone] at hsame
      cases hsame
    · rw [hnone] at hexpired
      cases hexpired

theorem Sweeps.evolves (hsweeps : Sweeps now before after) :
    Evolves host now writes before after where
  kept deliveryId delivery hget := by
    rcases hsweeps.deliveries deliveryId delivery hget with hsame | ⟨hdue, hexpired⟩
    · exact ⟨delivery, hsame, .same⟩
    · exact ⟨delivery.markExpired, hexpired, .expired hdue⟩
  births := .nothing hsweeps.messages hsweeps.absent
  sessions := SessionsKept.of_eq hsweeps.sessions
  drawn := hsweeps.drawn.ge

theorem not_due_markExpired (delivery : RelayDelivery) :
    ¬ store.due now delivery.markExpired := by
  rw [RelayStore.due_iff]
  rintro ⟨hstate | hstate, -⟩ <;> cases hstate

theorem DeliveryChange.of_markExpired {changed : RelayDelivery}
    (hchange : DeliveryChange host before after now delivery.markExpired changed) :
    changed = delivery.markExpired := by
  cases hchange with
  | same => rfl
  | expired hdue => exact absurd hdue (not_due_markExpired _ _)
  | claimed hclaimable => cases hclaimable
  | delivered hstate => cases hstate
  | suppressed hopen =>
    rcases hopen with ⟨hstate, -⟩ | ⟨hstate, -⟩
    · cases hstate
    · cases hstate
  | adopted hpending => cases hpending

theorem Sweeps.then_evolves (hsweeps : Sweeps now before middle)
    (hevolves : Evolves host now writes middle after) : Evolves host now writes before after where
  kept deliveryId delivery hget := by
    rcases hsweeps.deliveries deliveryId delivery hget with hsame | ⟨hdue, hexpired⟩
    · obtain ⟨changed, hchanged, hchange⟩ := hevolves.kept deliveryId delivery hsame
      exact ⟨changed, hchanged, hchange.earlier hsweeps.drawn.ge⟩
    · obtain ⟨changed, hchanged, hchange⟩ := hevolves.kept deliveryId _ hexpired
      rw [hchange.of_markExpired] at hchanged
      refine ⟨delivery.markExpired, hchanged, .expired ?_⟩
      obtain ⟨hstate, message, hmessage, hexpiry⟩ := RelayStore.due_iff.mp hdue
      exact RelayStore.due_iff.mpr ⟨hstate, message, hevolves.messages _ _ hmessage, hexpiry⟩
  births := by
    cases hevolves.births with
    | nothing hmessages hnone =>
      exact .nothing (hmessages.trans hsweeps.messages) fun deliveryId hbefore =>
        hnone deliveryId (hsweeps.absent deliveryId hbefore)
    | one hwrites hnewMessage hmessages hsender hnewDelivery hdelivery hmessageId hnewborn
        hothers =>
        rw [hsweeps.messages] at hnewMessage hmessages
        exact .one hwrites hnewMessage hmessages hsender (hsweeps.get_eq_none hnewDelivery)
          hdelivery hmessageId hnewborn fun otherId hother hbefore =>
            hothers otherId hother (hsweeps.absent otherId hbefore)
  sessions := (SessionsKept.of_eq hsweeps.sessions).trans hevolves.sessions
  drawn := hsweeps.drawn.ge.trans hevolves.drawn

theorem Newborn.markExpired (hnewborn : Newborn delivery) :
    Newborn delivery.markExpired := by
  obtain ⟨target, hfresh | hexpired⟩ := hnewborn
  · exact ⟨target, Or.inr (congrArg RelayDelivery.markExpired hfresh)⟩
  · exact ⟨target, Or.inr ((congrArg RelayDelivery.markExpired hexpired).trans rfl)⟩

theorem SentBy.of_eq {message : RelayMessage} (hsentBy : SentBy before message)
    (hsessions : after.sessions = before.sessions) : SentBy after message :=
  hsentBy.kept (SessionsKept.of_eq hsessions)

theorem Births.then_sweeps (hbirths : Births writes before middle)
    (hsweeps : Sweeps now middle after) : Births writes before after := by
  cases hbirths with
  | nothing hmessages hnone =>
    exact .nothing (hsweeps.messages.trans hmessages) fun deliveryId hbefore =>
      hsweeps.absent deliveryId (hnone deliveryId hbefore)
  | @one message delivery hwrites hnewMessage hmessages hsender hnewDelivery hdelivery hmessageId
      hnewborn hothers =>
      rw [← hsweeps.messages] at hmessages
      have hsentBy : SentBy after message := hsender.of_eq hsweeps.sessions
      have hrest : ∀ otherId, otherId ≠ delivery.id → before.deliveries.get otherId = none →
          after.deliveries.get otherId = none := fun otherId hother hbefore =>
        hsweeps.absent otherId (hothers otherId hother hbefore)
      rcases hsweeps.deliveries delivery.id delivery hdelivery with hsame | ⟨-, hexpired⟩
      · exact .one hwrites hnewMessage hmessages hsentBy hnewDelivery hsame hmessageId hnewborn
          hrest
      · exact @Births.one _ _ _ message delivery.markExpired hwrites hnewMessage hmessages hsentBy
          hnewDelivery hexpired hmessageId hnewborn.markExpired hrest

theorem Births.of_agree (hbirths : Births writes before middle)
    (hdeliveries : ∀ deliveryId, before.deliveries.get deliveryId = none →
      after.deliveries.get deliveryId = middle.deliveries.get deliveryId)
    (hmessages : after.messages = middle.messages) (hsessions : after.sessions = middle.sessions) :
    Births writes before after := by
  cases hbirths with
  | nothing hkept hnone =>
    exact .nothing (hmessages.trans hkept) fun deliveryId hbefore =>
      (hdeliveries deliveryId hbefore).trans (hnone deliveryId hbefore)
  | one hwrites hnewMessage hkept hsender hnewDelivery hdelivery hmessageId hnewborn hothers =>
    rw [← hmessages] at hkept
    exact .one hwrites hnewMessage hkept (hsender.of_eq hsessions) hnewDelivery
      ((hdeliveries _ hnewDelivery).trans hdelivery) hmessageId hnewborn
      fun otherId hother hbefore =>
        (hdeliveries otherId hbefore).trans (hothers otherId hother hbefore)

theorem Evolves.then_sweeps (hevolves : Evolves host now writes before middle)
    (hsettled : ∀ deliveryId delivery changed, before.deliveries.get deliveryId = some delivery →
      middle.deliveries.get deliveryId = some changed →
        changed = delivery ∨ ¬ after.due now changed)
    (hsweeps : Sweeps now middle after) : Evolves host now writes before after where
  kept deliveryId delivery hget := by
    obtain ⟨changed, hchanged, hchange⟩ := hevolves.kept deliveryId delivery hget
    rcases hsweeps.deliveries deliveryId changed hchanged with hsame | ⟨hdue, hexpired⟩
    · refine ⟨changed, hsame, ?_⟩
      cases hchange with
      | same => exact .same
      | expired hdue => exact .expired (by rwa [RelayStore.due, hsweeps.messages])
      | claimed hclaimable hmessage hlive hdraw hlast =>
        exact .claimed hclaimable (by rwa [hsweeps.messages]) hlive hdraw (hsweeps.drawn ▸ hlast)
      | delivered hstate hlease hmessage hlive =>
        exact .delivered hstate hlease (by rwa [hsweeps.messages]) hlive
      | suppressed hopen => exact .suppressed hopen
      | adopted hpending => exact .adopted hpending
    · rcases hsettled deliveryId delivery changed hget hchanged with rfl | hclosed
      · exact ⟨changed.markExpired, hexpired, .expired hdue⟩
      · exact absurd hdue hclosed
  births := hevolves.births.then_sweeps hsweeps
  sessions := hevolves.sessions.trans (SessionsKept.of_eq hsweeps.sessions)
  drawn := hevolves.drawn.trans hsweeps.drawn.ge

end Composition

end Pallium.Relay
