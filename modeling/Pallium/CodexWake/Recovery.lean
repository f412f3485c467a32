import Pallium.CodexWake.Generations
import Pallium.Relay.Lifecycle

/-!
# Recovery of wake fences

A sweep gives a fence a new generation only while its delivery waits, and deletes
it only when its delivery is gone or over.  A clock that has moved back defers the
recovery of a fence by at most two cooldowns, with the exception of a prepared one.
-/

namespace Pallium.CodexWake

open Pallium.Calendar Pallium.Relay Pallium.Run Pallium.Transaction

section States

variable {store : RelayStore} {deliveryId : String} {now : ℤ} {state : ReservationState}

/-- The delivery is neither over nor held by a claim whose lease still runs. -/
def Idle (delivery : RelayDelivery) (message : RelayMessage) (now : ℤ) : Prop :=
  now < message.expiresAt ∧ (delivery.state = .pending ∨
    delivery.state = .claimed ∧ ∃ lease, delivery.leaseExpiresAt = some lease ∧ lease ≤ now)

/-- The delivery is over: delivered, suppressed or expired. -/
def Over (delivery : RelayDelivery) (message : RelayMessage) (now : ℤ) : Prop :=
  delivery.state = .delivered ∨ delivery.state = .suppressed ∨ delivery.state = .expired ∨
    message.expiresAt ≤ now

theorem effectiveState_eq_pending {delivery : RelayDelivery} {message : RelayMessage}
    (hpending : effectiveState delivery message now = .pending) : Idle delivery message now := by
  unfold effectiveState at hpending
  split at hpending
  · cases hpending
  · next hunexpired =>
    split at hpending
    · next hlapsed =>
      obtain ⟨lease, hlease, hle⟩ := (Option.any_eq_true _ _).mp hlapsed.2
      refine ⟨?_, Or.inr ⟨hlapsed.1, lease, hlease, of_decide_eq_true hle⟩⟩
      exact not_le.mp fun hexpired => hunexpired ⟨Or.inr hlapsed.1, hexpired⟩
    · exact ⟨not_le.mp fun hexpired => hunexpired ⟨Or.inl hpending, hexpired⟩, Or.inl hpending⟩

theorem reservationState_eq_some (hstate : reservationState store deliveryId now = some state) :
    ∃ delivery message, store.deliveryWithMessage deliveryId = some (delivery, message) ∧
      state.recipientEndpointId = delivery.recipientEndpointId ∧
      state.state = effectiveState delivery message now ∧ state.storedState = delivery.state ∧
      state.attempts = delivery.attempts ∧
      state.codexWakeGeneration = delivery.codexWakeGeneration := by
  obtain ⟨⟨delivery, message⟩, hfound, rfl⟩ := Option.map_eq_some_iff.mp hstate
  exact ⟨delivery, message, hfound, rfl, rfl, rfl, rfl, rfl⟩

theorem reservationState_eq_none :
    reservationState store deliveryId now = none ↔
      store.deliveryWithMessage deliveryId = none := Option.map_eq_none_iff

theorem retryPending_iff : state.retryPending ↔ state.state = .pending ∧
    (state.storedState = .pending ∧ state.attempts = 0 ∨
      state.storedState = .claimed ∧ 0 < state.attempts) := by
  simp [ReservationState.retryPending]

theorem ownClaim_iff {fence : CodexWakeReservation} : ownClaim fence state ↔
    state.state = .pending ∧ state.storedState = .claimed ∧ 0 < state.attempts ∧
      (fence.correlatedClaimAttempts = some (state.attempts : ℤ) ∨
        state.codexWakeGeneration = some fence.generation) := by
  simp only [ownClaim, Bool.and_eq_true, beq_iff_eq, decide_eq_true_eq, Bool.or_eq_true,
    and_assoc, @eq_comm _ (some (state.attempts : ℤ))]

theorem terminal_iff : state.terminal ↔
    state.state = .delivered ∨ state.state = .expired ∨ state.state = .suppressed := by
  simp [ReservationState.terminal, or_assoc]

end States

/-- The claim that holds the delivery was made under the fence, and its lease has
run out. -/
def OwnClaimRunOut (fence : CodexWakeReservation) (delivery : RelayDelivery) (now : ℤ) : Prop :=
  (delivery.state = .claimed ∧ ∃ lease, delivery.leaseExpiresAt = some lease ∧ lease ≤ now) ∧
    (delivery.codexWakeGeneration = some fence.generation ∨
      fence.correlatedClaimAttempts = some (delivery.attempts : ℤ))

/-- The fence is uncorrelated, its cooldown has elapsed and the delivery waits for
another attempt. -/
def RetryDue (fence : CodexWakeReservation) (delivery : RelayDelivery) (now : ℤ) : Prop :=
  fence.correlatedClaimAttempts = none ∧ retryCooldownElapsed fence.retryNotBefore now ∧
    (delivery.state = .pending ∧ delivery.attempts = 0 ∨
      delivery.state = .claimed ∧ 0 < delivery.attempts)

/-- What makes it safe to give the fence a new generation. -/
def Rearmable (store : RelayStore) (fence : CodexWakeReservation) (now : ℤ) : Prop :=
  ∃ delivery message, store.deliveryWithMessage fence.deliveryId = some (delivery, message) ∧
    Idle delivery message now ∧
    (OwnClaimRunOut fence delivery now ∨ RetryDue fence delivery now)

section Sweeps

variable {store : RelayStore} {marker : ℤ} {authority : WakeAuthority}
  {fence : CodexWakeReservation} {now : ℤ}

theorem rearmable_of_retriable {target : WakeTarget}
    (hretriable : Retriable store marker authority fence target now) :
    Rearmable store fence now := by
  obtain ⟨state, hstate, hwaiting, -⟩ := hretriable.waiting
  obtain ⟨hpending, hstored⟩ := retryPending_iff.mp (waiting_iff.mp hwaiting).1
  obtain ⟨delivery, message, hfound, -, heffective, hstoredState, hattempts, -⟩ :=
    reservationState_eq_some hstate
  rw [hstoredState, hattempts] at hstored
  rw [heffective] at hpending
  exact ⟨delivery, message, hfound, effectiveState_eq_pending hpending,
    Or.inr ⟨hretriable.uncorrelated, hretriable.cooldown, hstored⟩⟩

section

variable {state : ReservationState}
  (hstate : reservationState store fence.deliveryId now = some state)
include hstate

theorem rearmable_of_ownClaim
    (hclaim : ownClaim fence state) : Rearmable store fence now := by
  obtain ⟨hpending, hclaimed, -, hown⟩ := ownClaim_iff.mp hclaim
  obtain ⟨delivery, message, hfound, -, heffective, hstoredState, hattempts, hgeneration⟩ :=
    reservationState_eq_some hstate
  rw [hattempts, hgeneration] at hown
  rw [heffective] at hpending
  rw [hstoredState] at hclaimed
  have hidle := effectiveState_eq_pending hpending
  refine ⟨delivery, message, hfound, hidle, Or.inl ⟨?_, hown.symm⟩⟩
  rcases hidle.2 with hstored | hlapsed
  · rw [hclaimed] at hstored
    cases hstored
  · exact hlapsed

theorem over_of_terminal
    (hterminal : state.terminal) :
    ∃ delivery message, store.deliveryWithMessage fence.deliveryId = some (delivery, message) ∧
      Over delivery message now := by
  obtain ⟨delivery, message, hfound, -, heffective, -⟩ := reservationState_eq_some hstate
  refine ⟨delivery, message, hfound, ?_⟩
  rcases terminal_iff.mp hterminal with hdelivered | hexpired | hsuppressed
  · rw [heffective, effectiveState] at hdelivered
    split at hdelivered
    · cases hdelivered
    · split at hdelivered
      · cases hdelivered
      · exact Or.inl hdelivered
  · rw [heffective, effectiveState] at hexpired
    split at hexpired
    · next hopen => exact Or.inr (Or.inr (Or.inr hopen.2))
    · split at hexpired
      · cases hexpired
      · exact Or.inr (Or.inr (Or.inl hexpired))
  · rw [heffective, effectiveState] at hsuppressed
    split at hsuppressed
    · cases hsuppressed
    · split at hsuppressed
      · cases hsuppressed
      · exact Or.inr (Or.inl hsuppressed)

end

end Sweeps

/-- The clock reading of a retry or a reconciliation. -/
def sweepReading : WakeOp → Option ℤ
  | .transition (.retry _ _ now) => some now
  | .transition (.reconcile _ now) => some now
  | _ => none

def isReconcile : WakeOp → Bool
  | .transition (.reconcile _ _) => true
  | _ => false

/-- What a sweep may do with the fence of an endpoint. -/
inductive SweepEffect (store : RelayStore) (now : ℤ) (reconciles : Bool) :
    Option CodexWakeReservation → Option CodexWakeReservation → Prop
  | absent : SweepEffect store now reconciles none none
  | kept (fence next : CodexWakeReservation) (hgeneration : next.generation = fence.generation) :
      SweepEffect store now reconciles (some fence) (some next)
  | rearmed (fence next : CodexWakeReservation) (hrearmable : Rearmable store fence now) :
      SweepEffect store now reconciles (some fence) (some next)
  | deleted (fence : CodexWakeReservation) (hreconciles : reconciles)
      (hgone : store.deliveryWithMessage fence.deliveryId = none ∨
        ∃ delivery message,
          store.deliveryWithMessage fence.deliveryId = some (delivery, message) ∧
            Over delivery message now) :
      SweepEffect store now reconciles (some fence) none

theorem SweepEffect.refl (store : RelayStore) (now : ℤ) (reconciles : Bool)
    (fence : Option CodexWakeReservation) : SweepEffect store now reconciles fence fence := by
  cases fence with
  | none => exact .absent
  | some fence => exact .kept fence fence rfl

variable {expected : CodexWakeReservation} {now : ℤ} {store : RelayStore}

/-- What happens to the fence of one endpoint happens to all, as the others stay. -/
theorem SweepEffect.of_write {reconciles : Bool}
    {before after : Table CodexWakeReservation} {stored : Option CodexWakeReservation}
    (hget : before.get expected.recipientEndpointId = some expected)
    (hafter : ∀ endpointId, after.get endpointId =
      if endpointId = expected.recipientEndpointId then stored else before.get endpointId)
    (heffect : SweepEffect store now reconciles (some expected) stored) (endpointId : String) :
    SweepEffect store now reconciles (before.get endpointId) (after.get endpointId) := by
  rw [hafter]
  split
  · next hsame =>
    rw [hsame, hget]
    exact heffect
  · exact .refl store now reconciles _

theorem get_grant {marker : ℤ} (authority : WakeAuthority) (item : CodexWakeReservation)
    (endpointId : String) :
    (authority.grant marker item).reservations.get endpointId =
      if endpointId = item.recipientEndpointId then some { item with generation := marker + 1 }
      else authority.reservations.get endpointId :=
  Table.get_set _ _ _

section Runs

variable (host : Host) (printable : Char → Bool)

theorem step_sweepEffect (database : Database) {op : WakeOp}
    (hsweep : sweepReading op = some now) (endpointId : String) :
    SweepEffect database.relay now (isReconcile op)
      (database.authority.reservations.get endpointId)
      ((database.step host printable op).authority.reservations.get endpointId) := by
  have hsame := SweepEffect.refl database.relay now (isReconcile op)
    (database.authority.reservations.get endpointId)
  cases op with
  | relay op => cases hsweep
  | initialization reservations => cases hsweep
  | transition request =>
    simp only [Database.step]
    rcases respond_cases printable database request with hrespond |
      ⟨marker, after, answer, -, -, -, happly, hrespond⟩
    · rw [hrespond]
      exact hsame
    · rw [hrespond]
      cases request with
      | retry expected target reading =>
        obtain rfl : reading = now := Option.some.inj hsweep
        rcases retry_cases happly with ⟨rfl, -⟩ | ⟨hretriable, rfl, -⟩
        · exact hsame
        · apply SweepEffect.of_write hretriable.current
          · exact get_grant _ (expected.rearm marker target .prepared _)
          · exact .rearmed _ _ (rearmable_of_retriable hretriable)
      | reconcile expected reading =>
        obtain rfl : reading = now := Option.some.inj hsweep
        rcases reconcile_cases happly with ⟨rfl, -⟩ | ⟨hget, found, -, hfound⟩
        · exact hsame
        · cases hfound with
          | missing hmissing =>
            apply SweepEffect.of_write hget (get_delete expected)
            exact .deleted _ rfl (Or.inl (reservationState_eq_none.mp hmissing))
          | terminal hstate hterminal =>
            apply SweepEffect.of_write hget (get_delete expected)
            exact .deleted _ rfl (Or.inr (over_of_terminal hstate hterminal))
          | @replaced state target hstate hclaim htarget hroom =>
            apply SweepEffect.of_write hget
            · exact get_grant _ (expected.rearm marker target .prepared none)
            · exact .rearmed _ _ (rearmable_of_ownClaim hstate hclaim)
          | resume hstate hprepared huncorrelated hpending htarget => exact hsame
          | clamped hstate hspent huncorrelated hoverdue hpending =>
            apply SweepEffect.of_write hget
            · exact get_write
                { expected with retryNotBefore := some (reading + wakeRetryCooldown) }
            · exact .kept _ _ rfl
          | retry hstate hretryable hpending => exact hsame
      | _ => cases hsweep

section Example

/-- `str.isprintable` of an ASCII character. -/
def asciiPrintable (c : Char) : Bool := 32 ≤ c.toNat && c.toNat ≤ 126

def exampleEndpointId : String := "relay-session-00000000000040008000000000000001"

def exampleTarget : WakeTarget := ⟨"recipient", "repo:a"⟩

def exampleFence : CodexWakeReservation :=
  ⟨exampleEndpointId, exampleDeliveryId, "recipient", "repo:a", 1, .prepared, none, none⟩

/-- A message to a Codex session. -/
def exampleRelayOps : List RelayOp :=
  [.turn (exampleTurn .codex "sender") exampleClock 0,
    .turn (exampleTurn .codex "recipient") exampleClock 0, .send (exampleSend "message") 0]

/-- The reservation of a wake for it and its native attempt. -/
def exampleBegun : List WakeOp :=
  exampleRelayOps.map WakeOp.relay ++
    [.initialization [],
      .transition (.reserve exampleEndpointId exampleDeliveryId "recipient" "repo:a"
        (seconds 1000)),
      .transition (.beginNativeAttempt exampleFence (seconds 1000) (seconds 1000))]

/-- The retry when the cooldown has elapsed. -/
def exampleRetry : WakeOp :=
  .transition (.retry (exampleFence.begun (seconds 1000)) exampleTarget (seconds 1060))

def exampleRetriedFence : CodexWakeReservation :=
  (exampleFence.begun (seconds 1000)).rearm 1 exampleTarget .prepared (some (seconds 1060))

def exampleRelay : RelayStore := Relay.reached exampleHost exampleRelayOps

def exampleAuthority (marker : ℤ) (fence : CodexWakeReservation) : WakeAuthority :=
  ⟨some marker, ⟨[fence], List.nodup_singleton _⟩⟩

theorem reached_exampleBegun : reached exampleHost asciiPrintable exampleBegun =
    ⟨exampleRelay, exampleAuthority 1 (exampleFence.begun (seconds 1000))⟩ := by
  decide +kernel

theorem reached_exampleRetry : reached exampleHost asciiPrintable (exampleBegun ++ [exampleRetry]) =
    ⟨exampleRelay, exampleAuthority 2 exampleRetriedFence⟩ := by
  have hstep : reached exampleHost asciiPrintable (exampleBegun ++ [exampleRetry]) =
      (reached exampleHost asciiPrintable exampleBegun).step exampleHost asciiPrintable
        exampleRetry := run_append _ _ _ _
  rw [hstep, reached_exampleBegun]
  decide +kernel

end Example

/-- In every run a retry or a reconciliation gives a fence a new generation only
if that is safe at the reading it takes, and only a reconciliation deletes a fence,
when the delivery is missing or over; neither makes a fence for an endpoint without
one. -/
theorem wake_rearm_safety (ops : List WakeOp) (op : WakeOp) (now : ℤ)
    (hsweep : sweepReading op = some now) (endpointId : String) :
    (∀ fence, (reached host printable ops).authority.reservations.get endpointId = some fence →
      (∀ next, (reached host printable (ops ++ [op])).authority.reservations.get endpointId =
          some next → next.generation ≠ fence.generation →
        Rearmable (reached host printable ops).relay fence now) ∧
      ((reached host printable (ops ++ [op])).authority.reservations.get endpointId = none →
        isReconcile op ∧
          ((reached host printable ops).relay.deliveryWithMessage fence.deliveryId = none ∨
            ∃ delivery message,
              (reached host printable ops).relay.deliveryWithMessage fence.deliveryId =
                some (delivery, message) ∧ Over delivery message now))) ∧
      ((reached host printable ops).authority.reservations.get endpointId = none →
        (reached host printable (ops ++ [op])).authority.reservations.get endpointId = none) := by
  have hstep : reached host printable (ops ++ [op]) =
      (reached host printable ops).step host printable op := run_append _ _ _ _
  have heffect := step_sweepEffect host printable (reached host printable ops) hsweep endpointId
  rw [hstep]
  generalize (reached host printable ops).authority.reservations.get endpointId = before at *
  generalize ((reached host printable ops).step host printable op).authority.reservations.get
    endpointId = after at *
  refine ⟨?_, ?_⟩
  · rintro fence rfl
    cases heffect with
    | kept fence next hgeneration =>
      refine ⟨?_, fun hnone => nomatch hnone⟩
      intro other hother hne
      cases hother
      exact absurd hgeneration hne
    | rearmed fence next hrearmable =>
      exact ⟨fun _ _ _ => hrearmable, fun hnone => nomatch hnone⟩
    | deleted fence hreconciles hgone =>
      exact ⟨(fun _ hnext => nomatch hnext), fun _ => ⟨hreconciles, hgone⟩⟩
  · rintro rfl
    cases heffect
    rfl

/-- The retry of a begun fence. -/
theorem wake_rearm_safety_retry :
    ∃ fence, (reached exampleHost asciiPrintable exampleBegun).authority.reservations.get
        exampleEndpointId = some fence ∧ fence.generation = 1 ∧
      Rearmable (reached exampleHost asciiPrintable exampleBegun).relay fence (seconds 1060) := by
  have hsafe := wake_rearm_safety exampleHost asciiPrintable exampleBegun exampleRetry
    (seconds 1060) rfl exampleEndpointId
  rw [reached_exampleBegun, reached_exampleRetry] at hsafe
  rw [reached_exampleBegun]
  exact ⟨_, rfl, rfl, (hsafe.1 _ rfl).1 _ rfl (by decide)⟩

end Runs

section Cooldown

/-- The request is a retry or a native attempt of the fence at a clock reading. -/
def Attempts (request : WakeRequest) (fence : CodexWakeReservation) (reading : ℤ) : Prop :=
  (∃ target, request = .retry fence target reading ∧ fence.outcome ≠ .prepared) ∨
    ∃ later, request = .beginNativeAttempt fence reading later ∧ fence.outcome = .prepared

/-- The checks before the one of the cooldown pass and that one fails. -/
def RefusedByCooldown (authority : WakeAuthority) (fence : CodexWakeReservation)
    (reading : ℤ) : Prop :=
  authority.reservations.get fence.recipientEndpointId = some fence ∧
    fence.correlatedClaimAttempts = none ∧
    retryCooldownElapsed fence.retryNotBefore reading = false

variable (host : Host) (printable : Char → Bool)

/-- However the run goes on, no retry and no native attempt of the fence is refused
because of its cooldown at a reading after the instant. -/
def RecoversBy (database : Database) (fence : CodexWakeReservation) (instant : ℤ) : Prop :=
  ∀ later request reading, Attempts request fence reading → instant < reading →
    ¬ RefusedByCooldown (run (Database.step host printable) database later).authority fence reading

/-- The cooldown of the fence is over at every reading after the instant. -/
def CooldownBy (fence : CodexWakeReservation) (instant : ℤ) : Prop :=
  ∀ deadline, fence.retryNotBefore = some deadline → deadline ≤ instant + 1

theorem retryCooldownElapsed_iff {retryNotBefore : Option ℤ} :
    retryCooldownElapsed retryNotBefore now ↔
      ∀ deadline, retryNotBefore = some deadline → deadline ≤ now := by
  cases retryNotBefore with
  | none => simp [retryCooldownElapsed]
  | some deadline => simp [retryCooldownElapsed]

theorem recoversBy_iff {database : Database} {fence : CodexWakeReservation} {instant : ℤ}
    (hget : database.authority.reservations.get fence.recipientEndpointId = some fence)
    (huncorrelated : fence.correlatedClaimAttempts = none) :
    RecoversBy host printable database fence instant ↔ CooldownBy fence instant := by
  constructor
  · intro hrecovers
    have helapsed : retryCooldownElapsed fence.retryNotBefore (instant + 1) = true := by
      by_contra hcooldown
      have hrefused : RefusedByCooldown database.authority fence (instant + 1) :=
        ⟨hget, huncorrelated, Bool.eq_false_iff.mpr hcooldown⟩
      by_cases hprepared : fence.outcome = .prepared
      · exact hrecovers [] (.beginNativeAttempt fence (instant + 1) (instant + 1)) _
          (Or.inr ⟨_, rfl, hprepared⟩) (by omega) hrefused
      · exact hrecovers [] (.retry fence fence.target (instant + 1)) _
          (Or.inl ⟨_, rfl, hprepared⟩) (by omega) hrefused
    exact retryCooldownElapsed_iff.mp helapsed
  · rintro hcooldown later request reading - hreading ⟨-, -, hrefused⟩
    have helapsed : retryCooldownElapsed fence.retryNotBefore reading := by
      rw [retryCooldownElapsed_iff]
      intro deadline hdeadline
      have := hcooldown deadline hdeadline
      omega
    rw [hrefused] at helapsed
    cases helapsed

/-- The bound holds after a reconciliation unless the fence keeps a later deadline:
it stays as it is if it is prepared, or if its own claim has run out and no
generation is left. -/
def Recoverable (authority : WakeAuthority) (fence : CodexWakeReservation)
    (state : ReservationState) (now : ℤ) : Prop :=
  CooldownBy fence (now + 2 * wakeRetryCooldown) ∨
    if ownClaim fence state then ∃ marker, authority.marker = some marker ∧ roomLeft marker
    else fence.outcome ≠ .prepared

theorem committed_apply {authority after : WakeAuthority} {request : WakeRequest}
    {answer : Option WakeAnswer} {endpointId : String} {fence : CodexWakeReservation}
    (hget : authority.reservations.get endpointId = some fence)
    (hcommitted : relayCodexWakeTransition printable store request authority =
      (after, .ok answer)) :
    ∃ marker, authority.marker = some marker ∧
      request.apply store marker authority = .ok (after, answer) := by
  rw [relayCodexWakeTransition] at hcommitted
  rcases transaction_cases _ authority with ⟨after', answer', hbody, htransaction⟩ |
    ⟨error, -, htransaction⟩
  · rw [htransaction] at hcommitted
    cases hcommitted
    obtain ⟨_, haccepted, hrest⟩ := bind_eq_ok.mp hbody
    cases hmarker : authority.marker with
    | some marker =>
      rw [hmarker] at hrest
      exact ⟨marker, rfl, hrest⟩
    | none =>
      have hempty := require_eq_ok.mp haccepted
      simp only [WakeAuthority.accepted, hmarker, Bool.and_eq_true, List.isEmpty_iff] at hempty
      have hmem := Table.mem_of_get hget
      rw [hempty.2] at hmem
      cases hmem
  · rw [htransaction] at hcommitted
    cases hcommitted

/-- What a reconciliation does with an uncorrelated fence whose delivery waits for
another attempt at an unchanged target. -/
theorem reconcile_of_waiting {marker : ℤ} {authority : WakeAuthority} {state : ReservationState}
    (hget : authority.reservations.get expected.recipientEndpointId = some expected)
    (huncorrelated : expected.correlatedClaimAttempts = none)
    (hstate : reservationState store expected.deliveryId now = some state)
    (hpending : state.retryPending)
    (hrecipient : state.recipientEndpointId = some expected.recipientEndpointId)
    (htarget : state.wakeTarget = some expected.target) :
    reconcile store marker authority expected now =
      if ownClaim expected state then
        if roomLeft marker then
          .ok (authority.grant marker (expected.rearm marker expected.target .prepared none),
            some (.reconciled .replaced (expected.rearm marker expected.target .prepared none)))
        else authority.refuse
      else if expected.outcome = .prepared then
        .ok (authority, some (.reconciled .resume expected))
      else if overdue expected now then
        .ok (authority.write { expected with retryNotBefore := some (now + wakeRetryCooldown) },
          some (.reconciled .cooldownClamped
            { expected with retryNotBefore := some (now + wakeRetryCooldown) }))
      else if retryable expected now then
        .ok (authority, some (.reconciled .retry expected))
      else authority.refuse := by
  have hcurrent : authority.current expected = true := current_iff.mpr hget
  have hopen : state.terminal = false := by
    have hstatePending := (retryPending_iff.mp hpending).1
    simp [ReservationState.terminal, hstatePending]
  rw [reconcile, hcurrent, hstate]
  simp only [Bool.not_true, Bool.false_eq_true, if_false, hrecipient, ne_eq, not_true_eq_false,
    hopen, htarget]
  by_cases hclaim : ownClaim expected state
  · simp only [hclaim, Option.filter_some, if_true]
    rfl
  · simp only [hclaim, Option.filter_some, Bool.false_eq_true, if_false, huncorrelated, hpending,
      Option.isSome_some, true_and, and_true]
    by_cases hprepared : expected.outcome = .prepared
    · simp only [hprepared, if_true]
    · simp only [hprepared, not_false_eq_true, true_and, if_false]

/-- After a committed reconciliation of an uncorrelated fence whose delivery waits
for another attempt at an unchanged target, recovery is deferred by at most two
cooldowns, if and only if the fence was recoverable. -/
theorem cooldown_recovery {database : Database} {after : WakeAuthority}
    {answer : Option WakeAnswer} {expected : CodexWakeReservation} {state : ReservationState}
    {now : ℤ}
    (hget : database.authority.reservations.get expected.recipientEndpointId = some expected)
    (huncorrelated : expected.correlatedClaimAttempts = none)
    (hstate : reservationState database.relay expected.deliveryId now = some state)
    (hpending : state.retryPending)
    (hrecipient : state.recipientEndpointId = some expected.recipientEndpointId)
    (htarget : state.wakeTarget = some expected.target)
    (hcommitted : relayCodexWakeTransition printable database.relay (.reconcile expected now)
      database.authority = (after, .ok answer)) :
    (∀ fence, after.reservations.get expected.recipientEndpointId = some fence →
      RecoversBy host printable ⟨database.relay, after⟩ fence (now + 2 * wakeRetryCooldown)) ↔
      Recoverable database.authority expected state now := by
  obtain ⟨marker, hmarker, happly⟩ := committed_apply printable hget hcommitted
  have hreconcile : reconcile database.relay marker database.authority expected now =
      .ok (after, answer) := happly
  rw [reconcile_of_waiting hget huncorrelated hstate hpending hrecipient htarget] at hreconcile
  have hcooldown : (0 : ℤ) ≤ wakeRetryCooldown := by decide
  -- What is asked of the stored fence is that its own cooldown ends in time.
  have hstored : ∀ {fence : CodexWakeReservation},
      after.reservations.get expected.recipientEndpointId = some fence →
      fence.recipientEndpointId = expected.recipientEndpointId →
      fence.correlatedClaimAttempts = none →
      ((∀ fence, after.reservations.get expected.recipientEndpointId = some fence →
        RecoversBy host printable ⟨database.relay, after⟩ fence (now + 2 * wakeRetryCooldown)) ↔
        CooldownBy fence (now + 2 * wakeRetryCooldown)) := by
    intro fence hfence hendpoint hnone
    rw [← @recoversBy_iff host printable ⟨database.relay, after⟩ _ _ (hendpoint.symm ▸ hfence)
      hnone]
    constructor
    · exact fun hall => hall fence hfence
    · intro hrecovers other hother
      rw [hfence] at hother
      cases hother
      exact hrecovers
  by_cases hclaim : ownClaim expected state
  · rw [if_pos hclaim] at hreconcile
    by_cases hroom : roomLeft marker
    · rw [if_pos hroom] at hreconcile
      cases hreconcile
      rw [hstored ((get_grant _ _ _).trans (if_pos rfl)) rfl rfl]
      refine ⟨fun _ => Or.inr ?_, fun _ deadline hdeadline => nomatch hdeadline⟩
      rw [if_pos hclaim]
      exact ⟨marker, hmarker, hroom⟩
    · rw [if_neg hroom] at hreconcile
      obtain ⟨rfl, -⟩ := refused_of_eq hreconcile
      rw [hstored hget rfl huncorrelated, Recoverable, if_pos hclaim]
      refine ⟨Or.inl, fun heither => heither.elim id ?_⟩
      rintro ⟨other, hother, hroom'⟩
      rw [hmarker] at hother
      cases hother
      exact absurd hroom' hroom
  · rw [if_neg hclaim] at hreconcile
    rw [Recoverable, if_neg hclaim]
    by_cases hprepared : expected.outcome = .prepared
    · rw [if_pos hprepared] at hreconcile
      cases hreconcile
      rw [hstored hget rfl huncorrelated]
      exact ⟨Or.inl, fun heither => heither.elim id fun hspent => absurd hprepared hspent⟩
    · rw [if_neg hprepared] at hreconcile
      refine ⟨fun _ => Or.inr hprepared, fun _ => ?_⟩
      by_cases hoverdue : overdue expected now
      · rw [if_pos hoverdue] at hreconcile
        cases hreconcile
        refine (hstored ((get_write _ _).trans (if_pos rfl)) rfl huncorrelated).mpr ?_
        intro deadline hdeadline
        cases hdeadline
        omega
      · have hsame : after = database.authority := by
          rw [if_neg hoverdue] at hreconcile
          split at hreconcile
          · cases hreconcile
            rfl
          · exact (refused_of_eq hreconcile).1
        subst hsame
        refine (hstored hget rfl huncorrelated).mpr ?_
        intro deadline hdeadline
        rw [overdue, hdeadline, Option.any_some, decide_eq_true_eq] at hoverdue
        omega

def exampleState : ReservationState :=
  ⟨some exampleEndpointId, .pending, .pending, 0, none, some exampleTarget⟩

theorem exampleAuthority_accepted :
    (exampleAuthority 2 exampleRetriedFence).accepted asciiPrintable := by
  decide +kernel

theorem reconcile_exampleRetriedFence
    (hstate : reservationState exampleRelay exampleDeliveryId now = some exampleState) :
    relayCodexWakeTransition asciiPrintable exampleRelay (.reconcile exampleRetriedFence now)
        (exampleAuthority 2 exampleRetriedFence) =
      (exampleAuthority 2 exampleRetriedFence,
        .ok (some (.reconciled .resume exampleRetriedFence))) := by
  apply transaction_of_ok
  rw [require, if_pos exampleAuthority_accepted]
  change reconcile exampleRelay 2 (exampleAuthority 2 exampleRetriedFence) exampleRetriedFence
    now = _
  rw [@reconcile_of_waiting _ _ _ _ _ exampleState rfl rfl hstate (by decide) rfl rfl]
  rfl

/-- The reconciliation of a fence that has just been retried. -/
theorem cooldown_recovery_retried :
    ∃ after, relayCodexWakeTransition asciiPrintable exampleRelay
        (.reconcile exampleRetriedFence (seconds 1060)) (exampleAuthority 2 exampleRetriedFence) =
        (after, .ok (some (.reconciled .resume exampleRetriedFence))) ∧
      ∀ fence, after.reservations.get exampleEndpointId = some fence →
        RecoversBy exampleHost asciiPrintable ⟨exampleRelay, after⟩ fence
          (seconds 1060 + 2 * wakeRetryCooldown) := by
  have hstate : reservationState exampleRelay exampleDeliveryId (seconds 1060) =
      some exampleState := by decide +kernel
  have hcommitted := reconcile_exampleRetriedFence hstate
  refine ⟨_, hcommitted, ?_⟩
  apply (@cooldown_recovery exampleHost asciiPrintable
    ⟨exampleRelay, exampleAuthority 2 exampleRetriedFence⟩ _ _ exampleRetriedFence exampleState
    (seconds 1060) rfl rfl hstate (by decide) rfl rfl hcommitted).mpr
  refine Or.inl fun deadline hdeadline => ?_
  cases hdeadline
  decide

/-- A clock that has moved back by sixteen minutes: the reconciliation of the
retried fence leaves its deadline, and the native attempt two minutes later is
refused. -/
theorem retried_fence_waits_for_the_clock :
    reached exampleHost asciiPrintable (exampleBegun ++ [exampleRetry]) =
        ⟨exampleRelay, exampleAuthority 2 exampleRetriedFence⟩ ∧
      exampleRetriedFence.correlatedClaimAttempts = none ∧
      reservationState exampleRelay exampleDeliveryId (seconds 100) = some exampleState ∧
      exampleState.retryPending ∧ exampleState.wakeTarget = some exampleRetriedFence.target ∧
      ∃ after, relayCodexWakeTransition asciiPrintable exampleRelay
          (.reconcile exampleRetriedFence (seconds 100)) (exampleAuthority 2 exampleRetriedFence) =
          (after, .ok (some (.reconciled .resume exampleRetriedFence))) ∧
        ¬ ∀ fence, after.reservations.get exampleEndpointId = some fence →
          RecoversBy exampleHost asciiPrintable ⟨exampleRelay, after⟩ fence
            (seconds 100 + 2 * wakeRetryCooldown) := by
  have hstate : reservationState exampleRelay exampleDeliveryId (seconds 100) =
      some exampleState := by decide +kernel
  refine ⟨reached_exampleRetry, rfl, hstate, by decide, rfl, _,
    reconcile_exampleRetriedFence hstate, fun hrecovers => ?_⟩
  apply hrecovers exampleRetriedFence rfl []
    (.beginNativeAttempt exampleRetriedFence (seconds 221) (seconds 221)) (seconds 221)
  · exact Or.inr ⟨_, rfl, rfl⟩
  · decide
  · exact ⟨rfl, rfl, by decide⟩

end Cooldown

end Pallium.CodexWake
