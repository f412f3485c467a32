import Pallium.Core.FencedLease
import Pallium.Relay.Lifecycle

/-!
# Claims are fenced

Seen from one delivery, a run of the service is a run of a fenced lease: the
events of the delivery are its claims, its finishing by an acknowledgement or a
reply, and its expiry or suppression.  What holds of every fenced lease
therefore holds of every delivery in every interleaving of claimers, ackers and
repliers.
-/

namespace Pallium.Relay

open Pallium.Run Pallium.FencedLease

/-- What the change of a delivery row means for its lease. -/
def changeEvent (now : ℤ) (before after : RelayDelivery) : Option (Event String ℤ) :=
  if before.attempts < after.attempts then
    after.claimToken.bind fun token => after.claimedAt.bind fun claimedAt =>
      after.leaseExpiresAt.map fun leaseExpiresAt => .claim ⟨token, claimedAt, leaseExpiresAt⟩
  else if after.state = before.state then none
  else if after.state = .delivered then after.claimToken.map fun token => .finish token now
  else some .abandon

/-- What an operation means for the lease of a delivery. -/
def deliveryEvent (host : Host) (deliveryId : String) (store : RelayStore) (op : RelayOp) :
    Option (Event String ℤ) :=
  (store.deliveries.get deliveryId).bind fun before =>
    ((op.step host store).deliveries.get deliveryId).bind fun after =>
      changeEvent op.now before after

/-- The events of a delivery in a run from the empty database. -/
def deliveryEvents (host : Host) (deliveryId : String) (ops : List RelayOp) :
    List (Event String ℤ) :=
  observations (RelayOp.step host) (deliveryEvent host deliveryId) RelayStore.empty ops

/-- The claims of a delivery in a run, in their order. -/
def deliveryClaims (host : Host) (deliveryId : String) (ops : List RelayOp) :
    List (Claim String ℤ) :=
  (deliveryEvents host deliveryId ops).filterMap Event.claimOf

/-- The row of a delivery shows the state of its lease. -/
structure Matches (lease : Lease String ℤ) (delivery : RelayDelivery) : Prop where
  attempts : delivery.attempts = lease.claims.length
  closed : lease.closed = true → delivery.Finished
  pending : delivery.state = .pending → lease.claims = []
  claimed : delivery.state = .claimed → ∃ latest, lease.claims.head? = some latest ∧
    delivery.claimToken = some latest.token ∧
    delivery.leaseExpiresAt = some latest.leaseExpiresAt

section Simulation

variable {host : Host} {now : ℤ} {before after : RelayStore} {delivery changed : RelayDelivery}

variable {claims : List (Claim String ℤ)}

theorem not_finished_of_open (hopen : delivery.state = .pending ∨ delivery.state = .claimed) :
    ¬ delivery.Finished := by
  rintro (hstate | hstate | hstate) <;> rcases hopen with hopen | hopen <;>
    rw [hstate] at hopen <;> cases hopen

theorem changeEvent_of_abandoned (hattempts : changed.attempts = delivery.attempts)
    (hstate : changed.state ≠ delivery.state) (hdelivered : changed.state ≠ .delivered) :
    changeEvent now delivery changed = some .abandon := by
  rw [changeEvent, if_neg (by simp [hattempts]), if_neg hstate, if_neg hdelivered]

theorem Matches.abandon (hmatches : Matches ⟨claims, false⟩ delivery)
    (hopen : delivery.state = .pending ∨ delivery.state = .claimed)
    (hattempts : changed.attempts = delivery.attempts)
    (hstate : changed.state = .expired ∨ changed.state = .suppressed) :
    changeEvent now delivery changed = some .abandon ∧ Matches ⟨claims, true⟩ changed := by
  refine ⟨changeEvent_of_abandoned hattempts ?_ ?_, hattempts.trans hmatches.attempts,
    fun _ => Or.inr hstate, fun hpending => ?_, fun hclaimed => ?_⟩
  · rcases hstate with hstate | hstate <;> rcases hopen with hopen | hopen <;>
      rw [hstate, hopen] <;> decide
  · rcases hstate with hstate | hstate <;> rw [hstate] <;> decide
  · rcases hstate with hstate | hstate <;> rw [hstate] at hpending <;> cases hpending
  · rcases hstate with hstate | hstate <;> rw [hstate] at hclaimed <;> cases hclaimed

theorem Matches.claim {token : String} {wake : Option ℤ}
    (hmatches : Matches ⟨claims, false⟩ delivery) (hclaimable : claimable now delivery) :
    let made : Claim String ℤ := ⟨token, now, now + seconds relayClaimLeaseSeconds⟩
    let changed := delivery.claim token now (now + seconds relayClaimLeaseSeconds) wake
    changeEvent now delivery changed = some (.claim made) ∧
      Step ⟨claims, false⟩ (.claim made) ⟨made :: claims, false⟩ ∧
      Matches ⟨made :: claims, false⟩ changed := by
  refine ⟨?_, .claim ?_ ?_, ⟨?_, nofun, nofun, fun _ => ⟨_, rfl, rfl, rfl⟩⟩⟩
  · have hmore : delivery.attempts <
        (delivery.claim token now (now + seconds relayClaimLeaseSeconds) wake).attempts :=
      Nat.lt_succ_self delivery.attempts
    rw [changeEvent, if_pos hmore]
    rfl
  · intro latest hlatest
    rcases claimable_iff.mp hclaimable with hpending | ⟨hclaimed, lease, hlease, hrunOut⟩
    · have hnone := hmatches.pending hpending
      simp only at hnone
      rw [hnone] at hlatest
      cases hlatest
    · obtain ⟨other, hother, -, hexpires⟩ := hmatches.claimed hclaimed
      obtain rfl := Option.eq_some_unique hother hlatest
      rw [hlease] at hexpires
      exact Option.some.inj hexpires ▸ hrunOut
  · have hterm : 0 ≤ seconds relayClaimLeaseSeconds := by decide
    change now ≤ now + seconds relayClaimLeaseSeconds
    omega
  · rw [List.length_cons, ← hmatches.attempts]
    rfl

theorem changeEvent_of_delivered {token : String} (hstate : delivery.state = .claimed)
    (htoken : delivery.claimToken = some token) :
    changeEvent now delivery (delivery.markDelivered now) = some (.finish token now) := by
  have hsame : ¬ delivery.attempts < (delivery.markDelivered now).attempts :=
    lt_irrefl delivery.attempts
  have hother : (delivery.markDelivered now).state ≠ delivery.state := by
    rw [hstate]
    exact nofun
  have hdelivered : (delivery.markDelivered now).state = .delivered := rfl
  rw [changeEvent, if_neg hsame, if_neg hother, if_pos hdelivered]
  change delivery.claimToken.map _ = _
  rw [htoken, Option.map_some]

theorem Matches.deliver (hmatches : Matches ⟨claims, false⟩ delivery)
    (hstate : delivery.state = .claimed) (hlease : leaseLive now delivery) :
    ∃ latest : Claim String ℤ,
      changeEvent now delivery (delivery.markDelivered now) = some (.finish latest.token now) ∧
        Step ⟨claims, false⟩ (.finish latest.token now) ⟨claims, true⟩ ∧
        Matches ⟨claims, true⟩ (delivery.markDelivered now) := by
  obtain ⟨latest, hlatest, htoken, hexpires⟩ := hmatches.claimed hstate
  have hlive : now < latest.leaseExpiresAt := by
    rw [leaseLive, hexpires] at hlease
    simpa using hlease
  refine ⟨latest, ?_, .finish hlatest hlive, hmatches.attempts, fun _ => Or.inl rfl, nofun, nofun⟩
  exact changeEvent_of_delivered hstate htoken

theorem DeliveryChange.simulated {lease : Lease String ℤ}
    (hchange : DeliveryChange host before after now delivery changed)
    (hmatches : Matches lease delivery) :
    changeEvent now delivery changed = none ∧ Matches lease changed ∨
      ∃ event final, changeEvent now delivery changed = some event ∧ Step lease event final ∧
        Matches final changed := by
  obtain ⟨claims, closed⟩ := lease
  have hstillOpen (hopen : delivery.state = .pending ∨ delivery.state = .claimed) :
      closed = false := by
    by_contra hclosed
    exact not_finished_of_open hopen (hmatches.closed (by simpa using hclosed))
  cases hchange with
  | same => exact Or.inl ⟨by simp [changeEvent], hmatches⟩
  | expired hdue =>
    have hopen := (RelayStore.due_iff.mp hdue).1
    obtain rfl := hstillOpen hopen
    obtain ⟨hevent, hfinal⟩ := @Matches.abandon now delivery delivery.markExpired _
      hmatches hopen rfl (Or.inl rfl)
    exact Or.inr ⟨_, _, hevent, .abandon, hfinal⟩
  | claimed hclaimable =>
    obtain rfl := hstillOpen ((claimable_iff.mp hclaimable).imp_right And.left)
    obtain ⟨hevent, hstep, hfinal⟩ := hmatches.claim hclaimable
    exact Or.inr ⟨_, _, hevent, hstep, hfinal⟩
  | delivered hstate hlease =>
    obtain rfl := hstillOpen (Or.inr hstate)
    obtain ⟨latest, hevent, hstep, hfinal⟩ := hmatches.deliver hstate hlease
    exact Or.inr ⟨_, _, hevent, hstep, hfinal⟩
  | @suppressed clearClaim hopen =>
    have hstate : delivery.state = .pending ∨ delivery.state = .claimed :=
      hopen.imp And.left fun hrunOut => (claimRunOut_iff.mp hrunOut.1).1
    obtain rfl := hstillOpen hstate
    obtain ⟨hevent, hfinal⟩ := @Matches.abandon now delivery
      (delivery.suppress clearClaim) _ hmatches hstate (by cases clearClaim <;> rfl)
      (Or.inr (by cases clearClaim <;> rfl))
    exact Or.inr ⟨_, _, hevent, .abandon, hfinal⟩
  | adopted hpending =>
    exact Or.inl ⟨by simp [changeEvent, RelayDelivery.adopt], hmatches.attempts,
      hmatches.closed, hmatches.pending, hmatches.claimed⟩

end Simulation

/-- A delivery that has not been written is an item nobody has claimed. -/
def StoredMatches (lease : Lease String ℤ) : Option RelayDelivery → Prop
  | none => lease = Lease.unclaimed
  | some delivery => Matches lease delivery

theorem Newborn.matches {delivery : RelayDelivery} (hnewborn : Newborn delivery) :
    Matches Lease.unclaimed delivery := by
  obtain ⟨target, hfresh | hexpired⟩ := hnewborn
  · rw [hfresh]
    exact ⟨rfl, nofun, fun _ => rfl, nofun⟩
  · rw [hexpired]
    exact ⟨rfl, nofun, nofun, nofun⟩

section Runs

variable {host : Host} {lease : Lease String ℤ}

theorem RelayOp.step_simulated (op : RelayOp) (deliveryId : String) {store : RelayStore}
    (hmatches : StoredMatches lease (store.deliveries.get deliveryId)) :
    ∃ final, Steps lease (deliveryEvent host deliveryId store op).toList final ∧
      StoredMatches final ((op.step host store).deliveries.get deliveryId) := by
  have hevolves := op.step_evolves host store
  cases hbefore : store.deliveries.get deliveryId with
  | none =>
    rw [hbefore] at hmatches
    obtain rfl : lease = Lease.unclaimed := hmatches
    refine ⟨Lease.unclaimed, ?_, ?_⟩
    · rw [deliveryEvent, hbefore]
      exact .nil _
    · cases hafter : (op.step host store).deliveries.get deliveryId with
      | none => rfl
      | some born => exact (hevolves.born deliveryId born hbefore hafter).matches
  | some delivery =>
    rw [hbefore] at hmatches
    obtain ⟨changed, hchanged, hchange⟩ := hevolves.kept deliveryId delivery hbefore
    have hevent : deliveryEvent host deliveryId store op =
        changeEvent op.now delivery changed := by
      rw [deliveryEvent, hbefore, Option.bind_some, hchanged, Option.bind_some]
    rw [hevent, hchanged]
    rcases hchange.simulated hmatches with ⟨hnone, hfinal⟩ | ⟨event, final, hsome, hstep, hfinal⟩
    · rw [hnone]
      exact ⟨lease, .nil lease, hfinal⟩
    · rw [hsome]
      exact ⟨final, .cons hstep (.nil final), hfinal⟩

theorem run_simulated (deliveryId : String) (ops : List RelayOp) {store : RelayStore}
    (hmatches : StoredMatches lease (store.deliveries.get deliveryId)) :
    ∃ final,
      Steps lease
        (observations (RelayOp.step host) (deliveryEvent host deliveryId) store ops) final ∧
      StoredMatches final ((run (RelayOp.step host) store ops).deliveries.get deliveryId) := by
  induction ops generalizing store lease with
  | nil => exact ⟨lease, .nil lease, hmatches⟩
  | cons op rest ih =>
    obtain ⟨middle, hfirst, hmiddle⟩ := op.step_simulated deliveryId hmatches
    obtain ⟨final, hrest, hfinal⟩ := ih hmiddle
    exact ⟨final, hfirst.append hrest, hfinal⟩

theorem reached_simulated (host : Host) (deliveryId : String) (ops : List RelayOp) :
    ∃ final, Steps Lease.unclaimed (deliveryEvents host deliveryId ops) final ∧
      StoredMatches final ((reached host ops).deliveries.get deliveryId) :=
  run_simulated deliveryId ops rfl

variable {deliveryId : String} {ops : List RelayOp} {delivery : RelayDelivery}
  (hget : (reached host ops).deliveries.get deliveryId = some delivery)
include hget

theorem latest_of_claimed (hstate : delivery.state = .claimed) :
    ∃ latest, (deliveryClaims host deliveryId ops).getLast? = some latest ∧
      delivery.claimToken = some latest.token ∧
      delivery.leaseExpiresAt = some latest.leaseExpiresAt := by
  obtain ⟨final, hsteps, hmatches⟩ := reached_simulated host deliveryId ops
  rw [hget] at hmatches
  obtain ⟨latest, hlatest, htoken, hexpires⟩ := hmatches.claimed hstate
  refine ⟨latest, ?_, htoken, hexpires⟩
  rw [hsteps.claims, Lease.unclaimed, List.append_nil, List.head?_reverse] at hlatest
  exact hlatest

theorem attempts_eq_length_deliveryClaims :
    delivery.attempts = (deliveryClaims host deliveryId ops).length := by
  obtain ⟨final, hsteps, hmatches⟩ := reached_simulated host deliveryId ops
  rw [hget] at hmatches
  rw [hmatches.attempts, hsteps.claims, Lease.unclaimed, List.append_nil, List.length_reverse]
  rfl

end Runs

section Finishing

variable {host : Host}

variable {op : RelayOp} {deliveryId : String} {outcome : RelayStore × Except RelayError AckResult}
  {result : AckResult}

/-- The operation acknowledges the delivery or replies to it. -/
def RelayOp.Finishes (deliveryId : String) : RelayOp → Prop
  | .ack id _ _ => id = deliveryId
  | .ackByReceipt id _ _ => id = deliveryId
  | .reply request _ => request.deliveryId = deliveryId
  | _ => False

/-- The operation carries the token of the claim or the receipt made from it. -/
def RelayOp.Presents (host : Host) (claim : Claim String ℤ) : RelayOp → Prop
  | .ack _ claimToken _ => claimToken = claim.token
  | .ackByReceipt _ receipt _ => deliveryReceipt host (some claim.token) = some receipt
  | .reply request _ => request.receipt = deliveryReceipt host (some claim.token)
  | _ => False

/-- The operation fails and at most marks the delivery of an expired message. -/
def Refused (host : Host) (store : RelayStore) (op : RelayOp) (delivery : RelayDelivery) : Prop :=
  (∃ error, (op.execute host store).2 = .error error) ∧
    (op.step host store = store ∨
      (∃ message, store.messages.get delivery.messageId = some message ∧
        message.expiresAt ≤ op.now) ∧ op.step host store = expireClaim delivery store)

/-- The operation carries the token or receipt of the claim before its lease and
the message have expired. -/
def Accepted (host : Host) (store : RelayStore) (op : RelayOp) (delivery : RelayDelivery)
    (claim : Claim String ℤ) : Prop :=
  op.Presents host claim ∧ op.now < claim.leaseExpiresAt ∧
    ∃ message, store.messages.get delivery.messageId = some message ∧ op.now < message.expiresAt

variable {store : RelayStore} {delivery : RelayDelivery} {latest : Claim String ℤ}

theorem lt_of_leaseLive {now : ℤ} (hexpires : delivery.leaseExpiresAt = some latest.leaseExpiresAt)
    (hlease : leaseLive now delivery) : now < latest.leaseExpiresAt := by
  rw [leaseLive, hexpires] at hlease
  simpa using hlease

/-- An acknowledgement of a claimed delivery is refused or presents what its
credential check accepts. -/
theorem AckOutcome.refused_or_accepted {accepts : RelayDelivery → Prop}
    (houtcome : AckOutcome op.now store deliveryId accepts outcome)
    (hexecute : op.execute host store = wrap .ack outcome)
    (hget : store.deliveries.get deliveryId = some delivery) (hstate : delivery.state = .claimed)
    (hexpires : delivery.leaseExpiresAt = some latest.leaseExpiresAt)
    (hpresents : accepts delivery → op.Presents host latest) :
    Refused host store op delivery ∨ Accepted host store op delivery latest := by
  cases houtcome with
  | refused error =>
    refine Or.inl ⟨⟨error, ?_⟩, Or.inl ?_⟩
    · rw [hexecute]
      rfl
    · rw [RelayOp.step, hexecute]
      rfl
  | @expired other message hother hmessage _ hexpired =>
    obtain rfl := Option.eq_some_unique hother hget
    refine Or.inl ⟨⟨messageExpired, ?_⟩, Or.inr ⟨⟨message, hmessage, hexpired⟩, ?_⟩⟩
    · rw [hexecute]
      rfl
    · rw [RelayOp.step, hexecute]
      rfl
  | @duplicate other _ hother hdelivered =>
    obtain rfl := Option.eq_some_unique hother hget
    rw [hstate] at hdelivered
    cases hdelivered
  | @finished other message _ hother hmessage _ hlease hlive haccepts =>
    obtain rfl := Option.eq_some_unique hother hget
    exact Or.inr ⟨hpresents haccepts, lt_of_leaseLive hexpires hlease, message, hmessage, hlive⟩

/-- So is a reply. -/
theorem ReplyOutcome.refused_or_accepted {request : ReplyRequest} {now : ℤ}
    (houtcome : ReplyOutcome host (serviceReply host request) now store
      (relayReplyAtomic host (serviceReply host request) now store))
    (hget : store.deliveries.get request.deliveryId = some delivery)
    (hstate : delivery.state = .claimed) (htoken : delivery.claimToken = some latest.token)
    (hexpires : delivery.leaseExpiresAt = some latest.leaseExpiresAt) :
    Refused host store (.reply request now) delivery ∨
      Accepted host store (.reply request now) delivery latest := by
  generalize hreply : relayReplyAtomic host (serviceReply host request) now store = outcome
    at houtcome
  have hexecute : (RelayOp.reply request now).execute host store = wrap .status outcome := by
    rw [← hreply]
    rfl
  cases houtcome with
  | refused error =>
    refine Or.inl ⟨⟨error, ?_⟩, Or.inl ?_⟩
    · rw [hexecute]
      rfl
    · rw [RelayOp.step, hexecute]
      rfl
  | @expired other message hother hmessage _ hexpired =>
    obtain rfl := Option.eq_some_unique hother hget
    refine Or.inl ⟨⟨messageExpired, ?_⟩, Or.inr ⟨⟨message, hmessage, hexpired⟩, ?_⟩⟩
    · rw [hexecute]
      rfl
    · rw [RelayOp.step, hexecute]
      rfl
  | @answered other message _ _ hother hmessage hcheck =>
    obtain rfl := Option.eq_some_unique hother hget
    cases hcheck with
    | @claimed _ hlive hlease receipt hreceipt hcurrent =>
      refine Or.inr ⟨?_, lt_of_leaseLive hexpires hlease, message, hmessage, hlive⟩
      have hmade : deliveryReceipt host (some latest.token) = some receipt := by
        rw [htoken] at hcurrent
        exact congrArg some (eq_of_matched hcurrent rfl)
      exact hreceipt.trans hmade.symm
    | delivered hdelivered =>
      rw [hstate] at hdelivered
      cases hdelivered

theorem finishes_claimed {ops : List RelayOp}
    (hget : (reached host ops).deliveries.get deliveryId = some delivery)
    (hstate : delivery.state = .claimed) (hfinishes : op.Finishes deliveryId) :
    Refused host (reached host ops) op delivery ∨
      ∃ claim, (deliveryClaims host deliveryId ops).getLast? = some claim ∧
        Accepted host (reached host ops) op delivery claim := by
  obtain ⟨latest, hlatest, htoken, hexpires⟩ := latest_of_claimed hget hstate
  refine Or.imp_right (fun haccepted => ⟨latest, hlatest, haccepted⟩) ?_
  cases op with
  | ack id claimToken now =>
    obtain rfl : id = deliveryId := hfinishes
    refine (relayAck_outcome id claimToken).refused_or_accepted rfl hget hstate hexpires ?_
    intro haccepts
    exact Option.eq_some_unique haccepts htoken
  | ackByReceipt id receipt now =>
    obtain rfl : id = deliveryId := hfinishes
    refine (relayAckByReceipt_outcome host id receipt).refused_or_accepted rfl hget hstate
      hexpires ?_
    intro haccepts
    rw [htoken] at haccepts
    exact congrArg some haccepts
  | reply request now =>
    obtain rfl : request.deliveryId = deliveryId := hfinishes
    exact (relayReplyAtomic_outcome _).refused_or_accepted hget hstate htoken hexpires
  | _ => cases hfinishes

/-- The report of an acknowledgement that delivers the delivery for the first time. -/
def firstReport (host : Host) (deliveryId : String) (store : RelayStore) (op : RelayOp) :
    Option AckResult :=
  match (op.execute host store).2 with
  | .ok (.ack result) =>
    if result.deliveryId = deliveryId ∧ result.alreadyDelivered = false then some result
    else none
  | _ => none

/-- The reports of first deliveries in a run from the empty database. -/
def firstReports (host : Host) (deliveryId : String) (ops : List RelayOp) : List AckResult :=
  observations (RelayOp.step host) (firstReport host deliveryId) RelayStore.empty ops

theorem AckOutcome.delivered_of_first {now : ℤ} {id : String} {accepts : RelayDelivery → Prop}
    (houtcome : AckOutcome now store id accepts outcome) (hok : outcome.2 = .ok result)
    (hfirst : result.alreadyDelivered = false) :
    result.deliveryId = id ∧ ∃ delivery, store.deliveries.get id = some delivery ∧
      delivery.state = .claimed ∧
        outcome.1.deliveries.get id = some (delivery.markDelivered now) := by
  cases houtcome with
  | refused => cases hok
  | expired => cases hok
  | duplicate _ _ _ hresult =>
    cases hok
    rw [hresult] at hfirst
    cases hfirst
  | @finished delivery _ _ hget _ hstate _ _ _ hresult =>
    cases hok
    refine ⟨hresult, delivery, hget, hstate, ?_⟩
    obtain rfl : delivery.id = id := Table.key_of_get hget
    rw [get_markDelivered, if_pos rfl, hget, Option.map_some]

theorem firstReport_isSome (hreport : (firstReport host deliveryId store op).isSome) :
    ∃ result, (op.execute host store).2 = .ok (.ack result) ∧ result.deliveryId = deliveryId ∧
      result.alreadyDelivered = false := by
  unfold firstReport at hreport
  split at hreport
  · next result hresult =>
      split at hreport
      · next hfirst => exact ⟨result, hresult, hfirst⟩
      · cases hreport
  · cases hreport

theorem ack_of_wrap (hok : (wrap RelayResult.ack outcome).2 = .ok (.ack result)) :
    outcome.2 = .ok result := by
  obtain ⟨after, error | other⟩ := outcome
  · cases hok
  · cases hok
    rfl

theorem wrap_ne_ack {α : Type} {kind : α → RelayResult} {outcome : RelayStore × Except RelayError α}
    (hkind : ∀ found, kind found ≠ .ack result) :
    (wrap kind outcome).2 ≠ .ok (.ack result) := by
  obtain ⟨after, error | found⟩ := outcome
  · exact nofun
  · intro hok
    exact hkind found (Except.ok.inj hok)

theorem delivered_of_firstReport (hreport : (firstReport host deliveryId store op).isSome) :
    ∃ delivery, store.deliveries.get deliveryId = some delivery ∧ delivery.state = .claimed ∧
      (op.step host store).deliveries.get deliveryId = some (delivery.markDelivered op.now) := by
  obtain ⟨result, hok, hid, hfirst⟩ := firstReport_isSome hreport
  cases op with
  | ack id claimToken now =>
    have houtcome := @relayAck_outcome now store id claimToken
    obtain ⟨hresult, hdelivered⟩ := houtcome.delivered_of_first (ack_of_wrap hok) hfirst
    obtain rfl : id = deliveryId := hresult.symm.trans hid
    exact hdelivered
  | ackByReceipt id receipt now =>
    have houtcome := @relayAckByReceipt_outcome now store host id receipt
    obtain ⟨hresult, hdelivered⟩ := houtcome.delivered_of_first (ack_of_wrap hok) hfirst
    obtain rfl : id = deliveryId := hresult.symm.trans hid
    exact hdelivered
  | _ =>
    refine absurd hok ?_
    unfold RelayOp.execute
    apply wrap_ne_ack
    simp

theorem finish_of_firstReport (hwellFormed : StoreWellFormed host store)
    (hreport : (firstReport host deliveryId store op).isSome) :
    ((deliveryEvent host deliveryId store op).bind Event.finishOf).isSome := by
  obtain ⟨delivery, hget, hstate, hafter⟩ := delivered_of_firstReport hreport
  have hclaimed := (hwellFormed.deliveries deliveryId delivery hget).claimed hstate
  obtain ⟨token, htoken⟩ := Option.isSome_iff_exists.mp hclaimed.1
  rw [deliveryEvent, hget, Option.bind_some, hafter, Option.bind_some,
    changeEvent_of_delivered hstate htoken]
  rfl

/-- Claims of a delivery are fenced in every run.  The terms of its claims are
disjoint, its first delivery is reported at most once, and whoever acknowledges
it or replies to it while it is claimed is refused or carries the token or
receipt of the latest claim, before that claim's lease and before the message
expire. -/
theorem claims_fenced (host : Host) (deliveryId : String) (ops : List RelayOp) :
    ((deliveryClaims host deliveryId ops).Pairwise fun earlier later =>
        Disjoint earlier.term later.term) ∧
      (firstReports host deliveryId ops).length ≤ 1 ∧
      ∀ delivery, (reached host ops).deliveries.get deliveryId = some delivery →
        delivery.attempts = (deliveryClaims host deliveryId ops).length ∧
        (delivery.state = .claimed → ∀ op : RelayOp, op.Finishes deliveryId →
          Refused host (reached host ops) op delivery ∨
            ∃ claim, (deliveryClaims host deliveryId ops).getLast? = some claim ∧
              Accepted host (reached host ops) op delivery claim) := by
  obtain ⟨final, hsteps, -⟩ := reached_simulated host deliveryId ops
  refine ⟨hsteps.terms_disjoint, ?_, fun delivery hget => ?_⟩
  · calc (firstReports host deliveryId ops).length
        ≤ (observations (RelayOp.step host)
            (fun store op => (deliveryEvent host deliveryId store op).bind Event.finishOf)
            RelayStore.empty ops).length :=
          length_observations_le (StoreWellFormed.empty host)
            (fun store op hstore => (op.step_evolves host store).storeWellFormed hstore)
            (fun store op hstore hreport => finish_of_firstReport hstore hreport) ops
      _ = ((deliveryEvents host deliveryId ops).filterMap Event.finishOf).length := by
          rw [deliveryEvents, filterMap_observations]
      _ ≤ 1 := hsteps.finish_once
  · exact ⟨attempts_eq_length_deliveryClaims hget,
      fun hstate op hfinishes => finishes_claimed hget hstate hfinishes⟩

end Finishing

section Example

/-- The acknowledgement with the token of the claim. -/
def exampleAck (now : ℤ) : RelayOp :=
  .ack exampleDeliveryId "relay-claim-00000000000040008000000000000003" now

/-- An acknowledgement in time is reported, a repeated one is not. -/
example :
    (firstReports exampleHost exampleDeliveryId
      (exampleClaimed ++ [exampleAck 2000000, exampleAck 3000000])).length = 1 := by
  decide

/-- The acknowledgement in time presents the claim in force. -/
theorem claims_fenced_ack :
    ∃ delivery claim, (reached exampleHost exampleClaimed).deliveries.get exampleDeliveryId =
        some delivery ∧
      (deliveryClaims exampleHost exampleDeliveryId exampleClaimed).getLast? = some claim ∧
        Accepted exampleHost (reached exampleHost exampleClaimed) (exampleAck 2000000)
          delivery claim := by
  have hstored : ((reached exampleHost exampleClaimed).deliveries.get exampleDeliveryId).any
      fun delivery => delivery.state == .claimed := by
    decide
  have hok : ((exampleAck 2000000).execute exampleHost
      (reached exampleHost exampleClaimed)).2.toOption.isSome := by
    decide
  rw [Option.any_eq_true] at hstored
  obtain ⟨delivery, hget, hstate⟩ := hstored
  obtain ⟨-, -, hfenced⟩ := claims_fenced exampleHost exampleDeliveryId exampleClaimed
  rcases (hfenced delivery hget).2 (beq_iff_eq.mp hstate) (exampleAck 2000000) rfl with
    ⟨⟨error, herror⟩, -⟩ | ⟨claim, hclaim, haccepted⟩
  · rw [herror] at hok
    cases hok
  · exact ⟨delivery, claim, hget, hclaim, haccepted⟩

end Example

end Pallium.Relay
