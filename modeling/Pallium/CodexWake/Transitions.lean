import Pallium.CodexWake.Fences

/-!
# What a transition can do

One lemma for each transition of the wake authority says when it is refused, what
it has checked where it is not, and what it then leaves behind.
-/

namespace Pallium.CodexWake

open Pallium.Relay Pallium.Transaction

section Lookups

variable {authority : WakeAuthority} {expected : CodexWakeReservation}

theorem current_iff : authority.current expected ↔
    authority.reservations.get expected.recipientEndpointId = some expected := by
  simp [WakeAuthority.current]

theorem get_write (item : CodexWakeReservation) (endpointId : String) :
    (authority.write item).reservations.get endpointId =
      if endpointId = item.recipientEndpointId then some item
      else authority.reservations.get endpointId :=
  Table.get_set _ _ _

theorem get_delete (item : CodexWakeReservation) (endpointId : String) :
    (authority.delete item).reservations.get endpointId =
      if endpointId = item.recipientEndpointId then none
      else authority.reservations.get endpointId :=
  Table.get_erase _ _ _

theorem retryable_iff {now : ℤ} : retryable expected now ↔
    expected.outcome ≠ .prepared ∧ expected.correlatedClaimAttempts = none ∧
      retryCooldownElapsed expected.retryNotBefore now := by
  simp [retryable, and_assoc]

theorem waiting_iff {state : ReservationState} : waiting expected state ↔
    state.retryPending ∧ state.claimedUnder expected.generation = false ∧
      state.recipientEndpointId = some expected.recipientEndpointId := by
  simp [waiting, and_assoc]

end Lookups

variable {store : RelayStore} {marker : ℤ} {authority after : WakeAuthority}
  {answer : Option WakeAnswer} {expected : CodexWakeReservation} {now : ℤ}

variable {deliveryId sessionRef containerRef : String}

/-- A refused transition changes and returns nothing. -/
def Refused (authority after : WakeAuthority) (answer : Option WakeAnswer) : Prop :=
  after = authority ∧ answer = none

theorem refused_of_eq (hrefused : authority.refuse = .ok (after, answer)) :
    Refused authority after answer := by
  cases hrefused
  exact ⟨rfl, rfl⟩

def newFence (endpointId deliveryId sessionRef containerRef : String) (marker : ℤ) :
    CodexWakeReservation :=
  ⟨endpointId, deliveryId, sessionRef, containerRef, marker + 1, .prepared, none, none⟩

/-- A fence that is given the next generation for a target. -/
def CodexWakeReservation.rearm (item : CodexWakeReservation) (marker : ℤ) (target : WakeTarget)
    (outcome : WakeOutcome) (retryNotBefore : Option ℤ) : CodexWakeReservation :=
  { item with
    generation := marker + 1
    outcome := outcome
    correlatedClaimAttempts := none
    retryNotBefore := retryNotBefore
    sessionRef := target.sessionRef
    containerRef := target.containerRef }

/-- What a reservation has found. -/
structure Reservable (store : RelayStore) (marker : ℤ) (authority : WakeAuthority)
    (endpointId deliveryId : String) (target : WakeTarget) (now : ℤ) : Prop where
  endpoint : authority.reservations.get endpointId = none
  delivery : ∀ item ∈ authority.reservations.rows, item.deliveryId ≠ deliveryId
  capacity : authority.reservations.rows.length < maxReservations
  room : roomLeft marker
  pending : ∃ state, reservationState store deliveryId now = some state ∧ state.state = .pending ∧
    state.recipientEndpointId = some endpointId ∧ state.wakeTarget = some target

theorem reserve_cases {endpointId : String}
    (hreserve : reserve store marker authority endpointId deliveryId sessionRef containerRef now =
      .ok (after, answer)) :
    Refused authority after answer ∨
      Reservable store marker authority endpointId deliveryId ⟨sessionRef, containerRef⟩ now ∧
        after = authority.grant marker
          (newFence endpointId deliveryId sessionRef containerRef marker) ∧
        answer = some (.fence (newFence endpointId deliveryId sessionRef containerRef marker)) := by
  unfold reserve at hreserve
  split at hreserve
  · exact Or.inl (refused_of_eq hreserve)
  · next hendpoint =>
    split at hreserve
    · exact Or.inl (refused_of_eq hreserve)
    · next hdelivery =>
      split at hreserve
      · exact Or.inl (refused_of_eq hreserve)
      · next hcapacity =>
        obtain ⟨state, hstate, hrest⟩ := bind_eq_ok.mp hreserve
        split at hrest
        · exact Or.inl (refused_of_eq hrest)
        · next hpending =>
          split at hrest
          · exact Or.inl (refused_of_eq hrest)
          · next hroom =>
            cases hrest
            push Not at hpending
            refine Or.inr ⟨⟨?_, ?_, ?_, ?_, state, orRaise_eq_ok.mp hstate, hpending⟩, rfl, rfl⟩
            · simpa using hendpoint
            · simpa using hdelivery
            · simpa using hcapacity
            · simpa using hroom

theorem correlate_cases {endpointId : String} {attempts expectedGeneration : ℤ}
    (hcorrelate : correlate authority endpointId deliveryId sessionRef containerRef attempts
      expectedGeneration = .ok (after, answer)) :
    Refused authority after answer ∨
      ∃ row, authority.reservations.get endpointId = some row ∧ row.deliveryId = deliveryId ∧
        row.target = ⟨sessionRef, containerRef⟩ ∧ row.generation = expectedGeneration ∧
        after = authority.write { row with correlatedClaimAttempts := some attempts } ∧
        answer = some (.fence { row with correlatedClaimAttempts := some attempts }) := by
  unfold correlate at hcorrelate
  cases hrow : authority.reservations.get endpointId with
  | none =>
    rw [hrow] at hcorrelate
    exact Or.inl (refused_of_eq hcorrelate)
  | some row =>
    simp only [hrow] at hcorrelate
    split at hcorrelate
    · exact Or.inl (refused_of_eq hcorrelate)
    · next hmatches =>
      cases hcorrelate
      push Not at hmatches
      obtain ⟨hdelivery, hsession, hcontainer, hgeneration, -⟩ := hmatches
      refine Or.inr ⟨row, rfl, hdelivery, ?_, hgeneration, rfl, rfl⟩
      rw [CodexWakeReservation.target, hsession, hcontainer]

theorem releaseDelivery_cases
    (hrelease : releaseDelivery authority deliveryId = .ok (after, answer)) :
    Refused authority after answer ∨
      ∃ item ∈ authority.reservations.rows, item.deliveryId = deliveryId ∧
        after = authority.delete item ∧ answer = some (.fence item) := by
  unfold releaseDelivery at hrelease
  cases hitem : authority.reservations.rows.find? fun item => item.deliveryId == deliveryId with
  | none =>
    rw [hitem] at hrelease
    exact Or.inl (refused_of_eq hrelease)
  | some item =>
    rw [hitem] at hrelease
    cases hrelease
    have hdelivery := List.find?_some hitem
    exact Or.inr ⟨item, List.mem_of_find?_eq_some hitem, by simpa using hdelivery, rfl, rfl⟩

theorem release_eq_ok {reservations : List CodexWakeReservation}
    (hrelease : release authority reservations = .ok (after, answer)) :
    ∃ removed, after = { authority with
        reservations := authority.reservations.eraseAll fun item => removed.contains item } ∧
      (∀ item ∈ removed, authority.current item) ∧ answer = some (.fences removed) := by
  cases hrelease
  exact ⟨_, rfl, fun item hitem => (List.mem_filter.mp hitem).2, rfl⟩

theorem retryTarget_cases (htarget : retryTarget store authority expected now =
      .ok (after, answer)) :
    Refused authority after answer ∨
      after = authority ∧ ∃ target, answer = some (.target target) := by
  unfold retryTarget at htarget
  split at htarget
  · exact Or.inl (refused_of_eq htarget)
  · cases hstate : reservationState store expected.deliveryId now with
    | none =>
      rw [hstate] at htarget
      exact Or.inl (refused_of_eq htarget)
    | some state =>
      simp only [hstate] at htarget
      cases hwake : state.wakeTarget with
      | none =>
        rw [hwake] at htarget
        exact Or.inl (refused_of_eq htarget)
      | some target =>
        simp only [hwake] at htarget
        split at htarget
        · cases htarget
          exact Or.inr ⟨rfl, target, rfl⟩
        · exact Or.inl (refused_of_eq htarget)

theorem recordOutcome_cases {outcome : WakeOutcome}
    (hrecord : recordOutcome authority expected outcome = .ok (after, answer)) :
    Refused authority after answer ∨
      ∃ row, authority.reservations.get expected.recipientEndpointId = some row ∧
        after = authority.write { row with outcome := outcome } ∧
        answer = some (.fence { row with outcome := outcome }) := by
  unfold recordOutcome at hrecord
  cases hrow : authority.reservations.get expected.recipientEndpointId with
  | none =>
    rw [hrow] at hrecord
    exact Or.inl (refused_of_eq hrecord)
  | some row =>
    simp only [hrow] at hrecord
    split at hrecord
    · split at hrecord
      · cases hrecord
        exact Or.inr ⟨row, rfl, rfl, rfl⟩
      · exact Or.inl (refused_of_eq hrecord)
    · split at hrecord
      · exact Or.inl (refused_of_eq hrecord)
      · next hsame =>
        obtain rfl : row = expected := not_not.mp hsame
        cases hrecord
        exact Or.inr ⟨row, rfl, rfl, rfl⟩

/-- What a native attempt has found. -/
structure Startable (store : RelayStore) (authority : WakeAuthority)
    (expected : CodexWakeReservation) (now : ℤ) : Prop where
  current : authority.reservations.get expected.recipientEndpointId = some expected
  prepared : expected.outcome = .prepared
  uncorrelated : expected.correlatedClaimAttempts = none
  cooldown : retryCooldownElapsed expected.retryNotBefore now
  waiting : ∃ state, reservationState store expected.deliveryId now = some state ∧
    CodexWake.waiting expected state ∧ state.wakeTarget = some expected.target

/-- A fence whose native attempt has begun. -/
def CodexWakeReservation.begun (item : CodexWakeReservation) (later : ℤ) : CodexWakeReservation :=
  { item with outcome := .uncertain, retryNotBefore := some (later + wakeRetryCooldown) }

theorem beginNativeAttempt_cases {later : ℤ}
    (hbegin : beginNativeAttempt store authority expected now later = .ok (after, answer)) :
    Refused authority after answer ∨
      Startable store authority expected now ∧ after = authority.write (expected.begun later) ∧
        answer = some (.fence (expected.begun later)) := by
  unfold beginNativeAttempt at hbegin
  split at hbegin
  · exact Or.inl (refused_of_eq hbegin)
  · next hready =>
    simp only [Bool.or_eq_true, Bool.not_eq_true', bne_iff_ne, not_or, not_not,
      Bool.not_eq_false, Option.isSome_iff_ne_none, ne_eq] at hready
    obtain ⟨⟨⟨hcurrent, hprepared⟩, huncorrelated⟩, hcooldown⟩ := hready
    cases hstate : reservationState store expected.deliveryId now with
    | none =>
      rw [hstate] at hbegin
      exact Or.inl (refused_of_eq hbegin)
    | some state =>
      simp only [hstate] at hbegin
      split at hbegin
      · next hwaiting =>
        cases hbegin
        exact Or.inr ⟨⟨current_iff.mp hcurrent, hprepared, huncorrelated, hcooldown, state, hstate,
          hwaiting⟩, rfl, rfl⟩
      · exact Or.inl (refused_of_eq hbegin)

/-- What a retry has found. -/
structure Retriable (store : RelayStore) (marker : ℤ) (authority : WakeAuthority)
    (expected : CodexWakeReservation) (target : WakeTarget) (now : ℤ) : Prop where
  current : authority.reservations.get expected.recipientEndpointId = some expected
  spent : expected.outcome ≠ .prepared
  uncorrelated : expected.correlatedClaimAttempts = none
  cooldown : retryCooldownElapsed expected.retryNotBefore now
  room : roomLeft marker
  waiting : ∃ state, reservationState store expected.deliveryId now = some state ∧
    CodexWake.waiting expected state ∧ state.wakeTarget = some target

/-- The instant that a retry stores, which no clock reading of the past exceeds. -/
def retryMarker (expected : CodexWakeReservation) (now : ℤ) : Option ℤ :=
  some (min now (expected.retryNotBefore.getD now))

theorem retry_cases {target : WakeTarget}
    (hretry : retry store marker authority expected target now = .ok (after, answer)) :
    Refused authority after answer ∨
      Retriable store marker authority expected target now ∧
        after = authority.grant marker
          (expected.rearm marker target .prepared (retryMarker expected now)) ∧
        answer = some (.fence
          (expected.rearm marker target .prepared (retryMarker expected now))) := by
  unfold retry at hretry
  split at hretry
  · exact Or.inl (refused_of_eq hretry)
  · next hready =>
    simp only [Bool.or_eq_true, Bool.not_eq_true', not_or, Bool.not_eq_false] at hready
    obtain ⟨hspent, huncorrelated, hcooldown⟩ := retryable_iff.mp hready.2
    cases hstate : reservationState store expected.deliveryId now with
    | none =>
      rw [hstate] at hretry
      exact Or.inl (refused_of_eq hretry)
    | some state =>
      simp only [hstate] at hretry
      split at hretry
      · next hwaiting =>
        cases hretry
        exact Or.inr ⟨⟨current_iff.mp hready.1, hspent, huncorrelated, hcooldown, hwaiting.2.2,
          state, hstate, hwaiting.1, hwaiting.2.1⟩, rfl, rfl⟩
      · exact Or.inl (refused_of_eq hretry)

/-- What a reconciliation does with a fence that is still current. -/
inductive Reconciled (store : RelayStore) (marker : ℤ) (authority : WakeAuthority)
    (expected : CodexWakeReservation) (now : ℤ) : WakeAuthority → WakeAnswer → Prop
  | missing (hmissing : reservationState store expected.deliveryId now = none) :
      Reconciled store marker authority expected now (authority.delete expected)
        (.reconciled .released expected)
  | terminal {state : ReservationState}
      (hstate : reservationState store expected.deliveryId now = some state)
      (hterminal : state.terminal) :
      Reconciled store marker authority expected now (authority.delete expected)
        (.reconciled .released expected)
  | replaced {state : ReservationState} {target : WakeTarget}
      (hstate : reservationState store expected.deliveryId now = some state)
      (hclaim : ownClaim expected state) (htarget : state.wakeTarget = some target)
      (hroom : roomLeft marker) :
      Reconciled store marker authority expected now
        (authority.grant marker (expected.rearm marker target .prepared none))
        (.reconciled .replaced (expected.rearm marker target .prepared none))
  | resume {state : ReservationState}
      (hstate : reservationState store expected.deliveryId now = some state)
      (hprepared : expected.outcome = .prepared)
      (huncorrelated : expected.correlatedClaimAttempts = none) (hpending : state.retryPending)
      (htarget : state.wakeTarget = some expected.target) :
      Reconciled store marker authority expected now authority (.reconciled .resume expected)
  | clamped {state : ReservationState}
      (hstate : reservationState store expected.deliveryId now = some state)
      (hspent : expected.outcome ≠ .prepared)
      (huncorrelated : expected.correlatedClaimAttempts = none) (hoverdue : overdue expected now)
      (hpending : state.retryPending) :
      Reconciled store marker authority expected now
        (authority.write { expected with retryNotBefore := some (now + wakeRetryCooldown) })
        (.reconciled .cooldownClamped
          { expected with retryNotBefore := some (now + wakeRetryCooldown) })
  | retry {state : ReservationState}
      (hstate : reservationState store expected.deliveryId now = some state)
      (hretryable : retryable expected now) (hpending : state.retryPending) :
      Reconciled store marker authority expected now authority (.reconciled .retry expected)

theorem reconcile_cases
    (hreconcile : reconcile store marker authority expected now = .ok (after, answer)) :
    Refused authority after answer ∨
      authority.reservations.get expected.recipientEndpointId = some expected ∧
        ∃ found, answer = some found ∧
          Reconciled store marker authority expected now after found := by
  unfold reconcile at hreconcile
  split at hreconcile
  · exact Or.inl (refused_of_eq hreconcile)
  · next hcurrent =>
    have hget := current_iff.mp (by simpa using hcurrent)
    cases hstate : reservationState store expected.deliveryId now with
    | none =>
      rw [hstate] at hreconcile
      cases hreconcile
      exact Or.inr ⟨hget, _, rfl, .missing hstate⟩
    | some state =>
      simp only [hstate] at hreconcile
      split at hreconcile
      · exact Or.inl (refused_of_eq hreconcile)
      · split at hreconcile
        · next hterminal =>
          cases hreconcile
          exact Or.inr ⟨hget, _, rfl, .terminal hstate hterminal⟩
        · cases htarget : state.wakeTarget.filter fun _ => ownClaim expected state with
          | some target =>
            simp only [htarget] at hreconcile
            obtain ⟨hwake, hclaim⟩ := Option.filter_eq_some_iff.mp htarget
            split at hreconcile
            · next hroom =>
              cases hreconcile
              exact Or.inr ⟨hget, _, rfl, .replaced hstate hclaim hwake hroom⟩
            · exact Or.inl (refused_of_eq hreconcile)
          | none =>
            simp only [htarget] at hreconcile
            split at hreconcile
            · next hresume =>
              cases hreconcile
              exact Or.inr ⟨hget, _, rfl,
                .resume hstate hresume.1 hresume.2.1 hresume.2.2.1 hresume.2.2.2⟩
            · split at hreconcile
              · next hclamped =>
                cases hreconcile
                exact Or.inr ⟨hget, _, rfl,
                  .clamped hstate hclamped.1 hclamped.2.1 hclamped.2.2.1 hclamped.2.2.2⟩
              · split at hreconcile
                · next hretry =>
                  cases hreconcile
                  exact Or.inr ⟨hget, _, rfl, .retry hstate hretry.1 hretry.2.1⟩
                · exact Or.inl (refused_of_eq hreconcile)

theorem replace_cases
    (hreplace : replace marker authority expected sessionRef containerRef = .ok (after, answer)) :
    Refused authority after answer ∨
      authority.reservations.get expected.recipientEndpointId = some expected ∧ roomLeft marker ∧
        after = authority.grant marker
          (expected.rearm marker ⟨sessionRef, containerRef⟩ .reserved none) ∧
        answer = some (.fence
          (expected.rearm marker ⟨sessionRef, containerRef⟩ .reserved none)) := by
  unfold replace at hreplace
  split at hreplace
  · exact Or.inl (refused_of_eq hreplace)
  · next hready =>
    simp only [Bool.or_eq_true, Bool.not_eq_true', not_or, Bool.not_eq_false] at hready
    cases hreplace
    exact Or.inr ⟨current_iff.mp hready.1, hready.2, rfl, rfl⟩

section Acceptance

variable {printable : Char → Bool} {item : CodexWakeReservation}

/-- The authority without some of its fences. -/
def WakeAuthority.eraseAll (authority : WakeAuthority) (doomed : CodexWakeReservation → Bool) :
    WakeAuthority :=
  { authority with reservations := authority.reservations.eraseAll doomed }

theorem accepted_iff (hmarker : authority.marker = some marker) :
    authority.accepted printable ↔ authority.reservations.rows.length ≤ maxReservations ∧
      (0 ≤ marker ∧ marker < integerLimit) ∧
      ∀ item ∈ authority.reservations.rows, item.valid printable ∧ item.generation ≤ marker := by
  simp [WakeAuthority.accepted, hmarker]

section

variable (haccepted : authority.accepted printable) (hmarker : authority.marker = some marker)
include haccepted hmarker

theorem accepted_write {old : CodexWakeReservation}
    (hget : authority.reservations.get item.recipientEndpointId = some old)
    (hvalid : item.valid printable) (hgeneration : item.generation ≤ marker) :
    (authority.write item).accepted printable := by
  obtain ⟨hlength, hbounds, hrows⟩ := (accepted_iff hmarker).mp haccepted
  have hafter : (authority.write item).marker = some marker := hmarker
  refine (accepted_iff hafter).mpr ⟨(Table.length_set_of_get hget).le.trans hlength, hbounds, ?_⟩
  intro other hother
  rcases Table.mem_rows_set.mp hother with rfl | ⟨hold, -⟩
  · exact ⟨hvalid, hgeneration⟩
  · exact hrows other hold

theorem accepted_grant (hroom : roomLeft marker)
    (hgeneration : item.generation = marker + 1) (hvalid : item.valid printable)
    (hlength : (authority.write item).reservations.rows.length ≤ maxReservations) :
    (authority.grant marker item).accepted printable := by
  obtain ⟨-, hbounds, hrows⟩ := (accepted_iff hmarker).mp haccepted
  have hbelow : marker < integerLimit - 1 := by simpa [roomLeft] using hroom
  have hitem : { item with generation := marker + 1 } = item := by rw [← hgeneration]
  rw [WakeAuthority.grant, hitem]
  refine (accepted_iff rfl).mpr ⟨hlength, ⟨by omega, by omega⟩, ?_⟩
  intro other hother
  rcases Table.mem_rows_set.mp hother with rfl | ⟨hold, -⟩
  · exact ⟨hvalid, hgeneration.le⟩
  · obtain ⟨hother, hle⟩ := hrows other hold
    exact ⟨hother, by omega⟩

theorem accepted_eraseAll (doomed : CodexWakeReservation → Bool) :
    (authority.eraseAll doomed).accepted printable := by
  obtain ⟨hlength, hbounds, hrows⟩ := (accepted_iff hmarker).mp haccepted
  have hafter : (authority.eraseAll doomed).marker = some marker := hmarker
  refine (accepted_iff hafter).mpr ⟨(List.length_filter_le _ _).trans hlength, hbounds, ?_⟩
  exact fun other hother => hrows other (List.mem_of_mem_filter hother)

end

theorem valid_iff : item.valid printable ↔
    validScope printable item.recipientEndpointId item.deliveryId item.sessionRef
        item.containerRef ∧
      (1 ≤ item.generation ∧ item.generation < integerLimit) ∧
      (∀ attempts, item.correlatedClaimAttempts = some attempts →
        1 ≤ attempts ∧ attempts < integerLimit) ∧
      ∀ deadline, item.retryNotBefore = some deadline → 0 ≤ deadline := by
  simp only [CodexWakeReservation.valid, Bool.and_eq_true, decide_eq_true_eq, and_assoc,
    Option.all_eq_true]

end Acceptance

end Pallium.CodexWake
