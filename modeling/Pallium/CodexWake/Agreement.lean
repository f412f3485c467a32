import Pallium.CodexWake.Registry

/-!
# Agreement of the two registries

Call by call the registry in memory and the one in front of the persisted
authority do the same, as long as deliveries stay pending, generations do not run
out, and the calls avoid the three places where the two differ: a replacement,
which one leaves prepared and the other reserved, a number of attempts that the
database cannot hold, and a deadline before 1970.
-/

namespace Pallium.CodexWake

open Pallium.Calendar Pallium.Relay Pallium.Run Pallium.Transaction

/-- The authority with the fences and the generation of a registry in memory. -/
def EphemeralRegistry.persisted (registry : EphemeralRegistry) : WakeAuthority :=
  ⟨some registry.generation, registry.reservations⟩

/-- The delivery is pending for the scope and has never been claimed. -/
def PendingFor (store : RelayStore) (endpointId deliveryId : String) (target : WakeTarget)
    (now : ℤ) : Prop :=
  ∃ generation, reservationState store deliveryId now =
    some ⟨some endpointId, .pending, .pending, 0, generation, some target⟩

/-- What is assumed of a call: its delivery stays pending for its scope, the
callback finds it so, and no generation beyond the largest integer is used. -/
structure Assumed (printable : Char → Bool) (store : RelayStore) (registry : EphemeralRegistry)
    (call : RegistryCall) : Prop where
  reserve : ∀ endpointId deliveryId sessionRef containerRef stillPending now,
    call = .reserve endpointId deliveryId sessionRef containerRef stillPending now →
      PendingFor store endpointId deliveryId ⟨sessionRef, containerRef⟩ now ∧
        stillPending ≠ some false
  begin : ∀ reservation now later, call = .beginNativeAttempt reservation now later →
    PendingFor store reservation.recipientEndpointId reservation.deliveryId reservation.target now
  room : (registry.perform printable call).1.generation < integerLimit

/-- The call is none of those that the two registries answer differently: it does
not replace a current fence, correlate a current fence with a number of attempts
beyond the largest integer, or begin a current fence so early that its deadline
lies before 1970. -/
def Undrifting (printable : Char → Bool) (registry : EphemeralRegistry) : RegistryCall → Prop
  | .replaceGeneration reservation sessionRef containerRef =>
    replaceable registry.reservations printable reservation sessionRef containerRef = false
  | .correlateClaim endpointId deliveryId sessionRef containerRef attempts expectedGeneration =>
    attempts < integerLimit ∨ (registry.correlateClaim printable endpointId deliveryId sessionRef
      containerRef attempts expectedGeneration).2 = false
  | .beginNativeAttempt reservation _ later =>
    0 ≤ later + wakeRetryCooldown ∨ beginnable registry.reservations reservation = false
  | _ => True

/-- What holds of a registry in memory whose fences a database accepts. -/
structure Sane (printable : Char → Bool) (registry : EphemeralRegistry) : Prop where
  accepted : registry.persisted.accepted printable
  prepared : ∀ item ∈ registry.reservations.rows, item.outcome = .prepared →
    item.retryNotBefore = none

section Calls

open EphemeralRegistry (perform persisted)

variable {printable : Char → Bool} {store : RelayStore} {registry : EphemeralRegistry}
  {request : WakeRequest}

/-- The persisted authority does with a call what the registry in memory does. -/
def Follows (printable : Char → Bool) (store : RelayStore) (registry : EphemeralRegistry)
    (call : RegistryCall) : Prop :=
  persistentPerform printable store registry.persisted call =
      ((registry.perform printable call).1.persisted, (registry.perform printable call).2) ∧
    Sane printable (registry.perform printable call).1

theorem delegate_of_ok {marker : ℤ} {authority after : WakeAuthority}
    {answer : Option WakeAnswer} (haccepted : authority.accepted printable)
    (hmarker : authority.marker = some marker)
    (happly : request.apply store marker authority = .ok (after, answer)) :
    delegate printable store authority request = (after, acceptedAnswer answer) := by
  have hbody : relayCodexWakeTransition printable store request authority =
      (after, .ok answer) := by
    apply transaction_of_ok
    rw [require, if_pos haccepted, hmarker]
    exact happly
  rw [delegate, hbody]

section

variable (hsane : Sane printable registry) {endpointId deliveryId sessionRef containerRef : String}
include hsane

theorem usableReservations_persisted :
    usableReservations printable registry.persisted = some registry.reservations := by
  rw [usableReservations, if_pos ⟨hsane.accepted, rfl⟩]
  rfl

theorem Sane.write {old item : CodexWakeReservation}
    (hget : registry.reservations.get item.recipientEndpointId = some old)
    (hgeneration : item.generation = old.generation) (hvalid : item.valid printable)
    (hprepared : item.outcome = .prepared → item.retryNotBefore = none) :
    Sane printable (registry.write item).1 := by
  have hold := ((accepted_iff rfl).mp hsane.accepted).2.2 old (Table.mem_of_get hget)
  constructor
  · exact accepted_write hsane.accepted rfl hget hvalid (hgeneration.trans_le hold.2)
  · intro other hother
    rcases Table.mem_rows_set.mp hother with rfl | ⟨hstored, -⟩
    · exact hprepared
    · exact hsane.prepared other hstored

theorem Sane.erased (doomed : CodexWakeReservation → Bool) :
    Sane printable ⟨registry.reservations.eraseAll doomed, registry.generation⟩ where
  accepted := accepted_eraseAll hsane.accepted rfl doomed
  prepared := fun item hitem => hsane.prepared item (List.mem_of_mem_filter hitem)

theorem Sane.valid {endpointId : String}
    {item : CodexWakeReservation} (hget : registry.reservations.get endpointId = some item) :
    item.valid printable :=
  (((accepted_iff rfl).mp hsane.accepted).2.2 item (Table.mem_of_get hget)).1

theorem delegate_of_refuse (happly : request.apply store registry.generation registry.persisted =
      registry.persisted.refuse) :
    delegate printable store registry.persisted request = (registry.persisted, false) :=
  delegate_of_ok hsane.accepted rfl happly

theorem delegate_of_fence {after : WakeAuthority} {item : CodexWakeReservation}
    (happly : request.apply store registry.generation registry.persisted =
      .ok (after, some (.fence item))) :
    delegate printable store registry.persisted request = (after, true) :=
  delegate_of_ok hsane.accepted rfl happly

theorem reserve_follows {stillPending : Option Bool} {now : ℤ}
    (hassumed : Assumed printable store registry
      (.reserve endpointId deliveryId sessionRef containerRef stillPending now)) :
    Follows printable store registry
      (.reserve endpointId deliveryId sessionRef containerRef stillPending now) := by
  obtain ⟨⟨generation, hstate⟩, hcallback⟩ := hassumed.reserve _ _ _ _ _ _ rfl
  have hroom := hassumed.room
  simp only [Follows, persistentPerform, perform, EphemeralRegistry.reserve]
    at hroom ⊢
  by_cases hscope : validScope printable endpointId deliveryId sessionRef containerRef
  · by_cases hendpoint : (registry.reservations.get endpointId).isSome
    · simp only [hscope, hendpoint, Bool.not_true, Bool.false_eq_true, if_false, if_true]
      refine ⟨delegate_of_refuse hsane ?_, hsane⟩
      simp only [WakeRequest.apply, CodexWake.reserve, persisted, hendpoint,
        if_true]
    · by_cases hdelivery : registry.reservations.rows.any fun item => item.deliveryId == deliveryId
      · simp only [hscope, hendpoint, hdelivery, Bool.not_true, Bool.false_eq_true, if_false,
          if_true]
        refine ⟨delegate_of_refuse hsane ?_, hsane⟩
        simp only [WakeRequest.apply, CodexWake.reserve, persisted, hendpoint,
          hdelivery, Bool.false_eq_true, if_false, if_true]
      · by_cases hcapacity : maxReservations ≤ registry.reservations.rows.length
        · simp only [hscope, hendpoint, hdelivery, hcapacity, Bool.not_true, Bool.false_eq_true,
            if_false, if_true]
          refine ⟨delegate_of_refuse hsane ?_, hsane⟩
          simp only [WakeRequest.apply, CodexWake.reserve, persisted, hendpoint,
            hdelivery, hcapacity, Bool.false_eq_true, if_false, if_true]
        · simp only [hscope, hendpoint, hdelivery, hcapacity, hcallback, Bool.not_true,
            Bool.false_eq_true, if_false, if_true] at hroom ⊢
          have hbelow : roomLeft registry.generation = true := by
            simp only [roomLeft, decide_eq_true_eq]
            omega
          have hbounds := ((accepted_iff rfl).mp hsane.accepted).2.1
          constructor
          · apply @delegate_of_fence printable store registry _ hsane _
              (newFence endpointId deliveryId sessionRef containerRef registry.generation)
            simp only [WakeRequest.apply, CodexWake.reserve, persisted,
              hendpoint, hdelivery, hcapacity, hstate, hbelow, Bool.false_eq_true, if_false]
            exact if_neg (by simp)
          · constructor
            · have hlength := Table.length_set_le registry.reservations
                (newFence endpointId deliveryId sessionRef containerRef registry.generation)
              apply @accepted_grant registry.generation registry.persisted printable
                (newFence endpointId deliveryId sessionRef containerRef registry.generation)
                hsane.accepted rfl hbelow rfl
              · refine valid_iff.mpr ⟨hscope, ⟨?_, hroom⟩, ?_, ?_⟩
                · have := hbounds.1
                  change 1 ≤ registry.generation + 1
                  omega
                · intro attempts hattempts
                  cases hattempts
                · intro deadline hdeadline
                  cases hdeadline
              · exact hlength.trans (not_le.mp hcapacity)
            · intro other hother hprepared
              rcases Table.mem_rows_set.mp hother with rfl | ⟨hstored, -⟩
              · rfl
              · exact hsane.prepared other hstored hprepared
  · simp only [hscope, Bool.not_false, if_true, Bool.false_eq_true, if_false]
    exact ⟨rfl, hsane⟩

theorem correlateClaim_follows {attempts expectedGeneration : ℤ}
    (hundrifting : Undrifting printable registry (.correlateClaim endpointId deliveryId sessionRef
      containerRef attempts expectedGeneration)) :
    Follows printable store registry (.correlateClaim endpointId deliveryId sessionRef containerRef
      attempts expectedGeneration) := by
  simp only [Undrifting, EphemeralRegistry.correlateClaim] at hundrifting
  simp only [Follows, persistentPerform, perform,
    EphemeralRegistry.correlateClaim]
  by_cases hvalid : claimValid printable endpointId deliveryId sessionRef containerRef attempts
      expectedGeneration
  · simp only [hvalid, Bool.not_true, Bool.false_eq_true, if_false, true_and] at hundrifting ⊢
    cases hget : registry.reservations.get endpointId with
    | none =>
      simp only
      refine ⟨?_, hsane⟩
      split
      · apply delegate_of_refuse hsane
        simp only [WakeRequest.apply, CodexWake.correlate, persisted, hget]
      · rfl
    | some current =>
      simp only [hget] at hundrifting ⊢
      have hcurrent := valid_iff.mp (hsane.valid hget)
      have hendpoint : current.recipientEndpointId = endpointId := Table.key_of_get hget
      by_cases hmatch : current.deliveryId ≠ deliveryId ∨ current.sessionRef ≠ sessionRef ∨
          current.containerRef ≠ containerRef ∨ current.generation ≠ expectedGeneration ∨
          (current.correlatedClaimAttempts.isSome ∧
            current.correlatedClaimAttempts ≠ some attempts)
      · rw [if_pos hmatch]
        refine ⟨?_, hsane⟩
        split
        · apply delegate_of_refuse hsane
          simp only [WakeRequest.apply, CodexWake.correlate, persisted, hget,
            if_pos hmatch]
        · rfl
      · rw [if_neg hmatch] at hundrifting ⊢
        have hattempts : attempts < integerLimit :=
          hundrifting.resolve_right (by simp [EphemeralRegistry.write])
        have hgeneration : expectedGeneration < integerLimit := by
          push Not at hmatch
          rw [← hmatch.2.2.2.1]
          exact hcurrent.2.1.2
        rw [if_pos ⟨hattempts, hgeneration⟩]
        constructor
        · apply delegate_of_fence hsane
          simp only [WakeRequest.apply, CodexWake.correlate, persisted, hget,
            if_neg hmatch]
          rfl
        · apply @Sane.write printable registry hsane current
            { current with correlatedClaimAttempts := some attempts } (hendpoint ▸ hget) rfl
          · refine valid_iff.mpr ⟨hcurrent.1, hcurrent.2.1, ?_, hcurrent.2.2.2⟩
            intro count hcount
            cases hcount
            simp only [claimValid, Bool.and_eq_true, decide_eq_true_eq] at hvalid
            exact ⟨hvalid.1.2, hattempts⟩
          · exact hsane.prepared current (Table.mem_of_get hget)
  · simp only [hvalid, Bool.not_false, if_true, Bool.false_eq_true, false_and, if_false]
    exact ⟨rfl, hsane⟩

theorem releaseDelivery_follows (deliveryId : String) :
    Follows printable store registry (.releaseDelivery deliveryId) := by
  simp only [Follows, persistentPerform, perform,
    EphemeralRegistry.releaseDelivery]
  cases hitem : registry.reservations.rows.find? fun item => item.deliveryId == deliveryId with
  | none =>
    refine ⟨delegate_of_refuse hsane ?_, hsane⟩
    simp only [WakeRequest.apply, CodexWake.releaseDelivery, persisted, hitem]
  | some item =>
    constructor
    · apply delegate_of_fence hsane
      simp only [WakeRequest.apply, CodexWake.releaseDelivery, persisted, hitem]
      rfl
    · exact hsane.erased _

end

theorem contains_current {reservations : List CodexWakeReservation}
    {item : CodexWakeReservation} (hitem : item ∈ registry.reservations.rows)
    (hcurrent : ∀ other ∈ reservations,
      registry.reservations.get other.recipientEndpointId = some other) :
    (reservations.map CodexWakeReservation.recipientEndpointId).contains
      item.recipientEndpointId = reservations.contains item := by
  rw [Bool.eq_iff_iff, List.contains_iff_mem, List.contains_iff_mem, List.mem_map]
  constructor
  · rintro ⟨other, hother, hsame⟩
    have hget := hcurrent other hother
    have hstored : registry.reservations.get item.recipientEndpointId = some item :=
      Table.get_of_mem hitem
    rw [hsame, hstored] at hget
    cases hget
    exact hother
  · exact fun hmem => ⟨item, hmem, rfl⟩

theorem releaseGenerations_follows (hsane : Sane printable registry)
    (reservations : List CodexWakeReservation) :
    Follows printable store registry (.releaseGenerations reservations) := by
  simp only [Follows, persistentPerform, perform,
    EphemeralRegistry.releaseGenerations]
  have hcurrent : ∀ item ∈ reservations.filter fun item =>
      registry.reservations.get item.recipientEndpointId == some item,
      registry.reservations.get item.recipientEndpointId = some item :=
    fun item hitem => by simpa using (List.mem_filter.mp hitem).2
  have happly : WakeRequest.apply store registry.generation registry.persisted
      (.release reservations) = .ok
        (registry.persisted.eraseAll fun item => (reservations.filter fun item =>
          registry.reservations.get item.recipientEndpointId == some item).contains item,
        some (.fences (reservations.filter fun item =>
          registry.reservations.get item.recipientEndpointId == some item))) := rfl
  rw [delegate_of_ok hsane.accepted rfl happly]
  generalize (reservations.filter fun item =>
    registry.reservations.get item.recipientEndpointId == some item) = current at hcurrent ⊢
  have hsame : ∀ item ∈ registry.reservations.rows,
      current.contains item =
        (current.map CodexWakeReservation.recipientEndpointId).contains
          item.recipientEndpointId := fun item hitem => (contains_current hitem hcurrent).symm
  cases current with
  | nil =>
    have herased : (registry.reservations.eraseAll fun item => [].contains item) =
        registry.reservations := Table.eraseAll_eq_self fun _ _ => rfl
    refine ⟨?_, hsane⟩
    exact congrArg (fun table => ((⟨some registry.generation, table⟩ : WakeAuthority), false))
      herased
  | cons head tail =>
    refine ⟨?_, hsane.erased _⟩
    exact congrArg (fun table => ((⟨some registry.generation, table⟩ : WakeAuthority), true))
      (Table.eraseAll_congr hsame)

theorem outcomeFence_eq_some {reservations : Table CodexWakeReservation}
    {reservation current : CodexWakeReservation} {outcome : WakeOutcome}
    (hfence : outcomeFence reservations reservation outcome = some current) :
    reservations.get current.recipientEndpointId = some current ∧
      (outcome = .accepted ∧ current.outcome = .uncertain ∨ outcome = .uncertain) := by
  rw [outcomeFence] at hfence
  split at hfence
  · cases hfence
  · next houtcome =>
    obtain ⟨hget, hcheck⟩ := Option.filter_eq_some_iff.mp hfence
    have hendpoint : current.recipientEndpointId = reservation.recipientEndpointId :=
      Table.key_of_get hget
    refine ⟨hendpoint ▸ hget, ?_⟩
    by_cases haccepted : outcome = .accepted
    · simp only [haccepted, if_true, Bool.and_eq_true, beq_iff_eq] at hcheck
      exact Or.inl ⟨haccepted, hcheck.2.1⟩
    · refine Or.inr ?_
      by_contra huncertain
      exact houtcome ⟨haccepted, huncertain⟩

variable (hsane : Sane printable registry) {reservation : CodexWakeReservation}
include hsane

theorem recordOutcome_follows (reservation : CodexWakeReservation) (outcome : WakeOutcome) :
    Follows printable store registry (.recordOutcome reservation outcome) := by
  simp only [Follows, persistentPerform, perform,
    EphemeralRegistry.recordOutcome, usableReservations_persisted hsane, Option.bind_some]
  cases hfence : outcomeFence registry.reservations reservation outcome with
  | none => exact ⟨rfl, hsane⟩
  | some current =>
    obtain ⟨hget, hkind⟩ := outcomeFence_eq_some hfence
    have hcurrent := valid_iff.mp (hsane.valid hget)
    constructor
    · apply @delegate_of_fence printable store registry _ hsane _
        { current with outcome := outcome }
      rcases hkind with ⟨rfl, huncertain⟩ | rfl
      · simp only [WakeRequest.apply, recordOutcome, persisted, hget,
          huncertain, if_true, and_self]
        rfl
      · simp [WakeRequest.apply, recordOutcome, persisted, hget]
        rfl
    · apply @Sane.write printable registry hsane current { current with outcome := outcome }
        hget rfl
      · exact valid_iff.mpr hcurrent
      · intro hprepared
        have houtcome : outcome = .prepared := hprepared
        rcases hkind with ⟨rfl, -⟩ | rfl
        · cases houtcome
        · cases houtcome

theorem beginNativeAttempt_follows {now later : ℤ}
    (hassumed : Assumed printable store registry (.beginNativeAttempt reservation now later))
    (hundrifting : Undrifting printable registry (.beginNativeAttempt reservation now later)) :
    Follows printable store registry (.beginNativeAttempt reservation now later) := by
  obtain ⟨generation, hstate⟩ := hassumed.begin _ _ _ rfl
  simp only [Undrifting] at hundrifting
  simp only [Follows, persistentPerform, perform,
    EphemeralRegistry.beginNativeAttempt, usableReservations_persisted hsane, Option.any_some]
  by_cases hbeginnable : beginnable registry.reservations reservation
  · have hdeadline := hundrifting.resolve_right (by simp [hbeginnable])
    simp only [hbeginnable, if_true]
    simp only [beginnable, Bool.and_eq_true, beq_iff_eq, Option.isNone_iff_eq_none]
      at hbeginnable
    obtain ⟨⟨hprepared, huncorrelated⟩, hget⟩ := hbeginnable
    have hnone := hsane.prepared reservation (Table.mem_of_get hget) hprepared
    have hcurrent := valid_iff.mp (hsane.valid hget)
    constructor
    · apply @delegate_of_fence printable store registry _ hsane _ (reservation.begun later)
      have hwaiting : waiting reservation
          ⟨some reservation.recipientEndpointId, .pending, .pending, 0, generation,
            some reservation.target⟩ := by
        simp [waiting, ReservationState.retryPending, ReservationState.claimedUnder]
      have hready : registry.persisted.current reservation = true := current_iff.mpr hget
      simp [WakeRequest.apply, CodexWake.beginNativeAttempt, hready, hprepared, huncorrelated,
        hnone, hstate, hwaiting, retryCooldownElapsed, CodexWakeReservation.begun]
      rfl
    · apply @Sane.write printable registry hsane reservation (reservation.begun later) hget rfl
      · refine valid_iff.mpr ⟨hcurrent.1, hcurrent.2.1, hcurrent.2.2.1, ?_⟩
        intro deadline hstored
        cases hstored
        exact hdeadline
      · intro hagain
        cases hagain
  · simp only [hbeginnable, Bool.false_eq_true, if_false]
    exact ⟨rfl, hsane⟩

theorem replaceGeneration_follows {sessionRef containerRef : String}
    (hundrifting : Undrifting printable registry
      (.replaceGeneration reservation sessionRef containerRef)) :
    Follows printable store registry (.replaceGeneration reservation sessionRef containerRef) := by
  simp only [Undrifting] at hundrifting
  simp only [Follows, persistentPerform, perform,
    EphemeralRegistry.replaceGeneration, usableReservations_persisted hsane, Option.any_some,
    hundrifting, Bool.false_eq_true, if_false]
  exact ⟨rfl, hsane⟩

theorem perform_follows {call : RegistryCall}
    (hassumed : Assumed printable store registry call)
    (hundrifting : Undrifting printable registry call) :
    Follows printable store registry call := by
  cases call with
  | reserve endpointId deliveryId sessionRef containerRef stillPending now =>
    exact reserve_follows hsane hassumed
  | correlateClaim endpointId deliveryId sessionRef containerRef attempts expectedGeneration =>
    exact correlateClaim_follows hsane hundrifting
  | releaseDelivery deliveryId => exact releaseDelivery_follows hsane deliveryId
  | releaseGenerations reservations => exact releaseGenerations_follows hsane reservations
  | recordOutcome reservation outcome => exact recordOutcome_follows hsane reservation outcome
  | beginNativeAttempt reservation now later =>
    exact beginNativeAttempt_follows hsane hassumed hundrifting
  | replaceGeneration reservation sessionRef containerRef =>
    exact replaceGeneration_follows hsane hundrifting

/-- A replacement is accepted by both; the fences differ only in the outcome. -/
theorem replaceGeneration_differs {sessionRef containerRef : String}
    (hroom : (registry.perform printable
      (.replaceGeneration reservation sessionRef containerRef)).1.generation < integerLimit)
    (hreplaceable : replaceable registry.reservations printable reservation sessionRef
      containerRef) :
    registry.perform printable (.replaceGeneration reservation sessionRef containerRef) =
        (⟨registry.reservations.set (reservation.rearm registry.generation
          ⟨sessionRef, containerRef⟩ .prepared none), registry.generation + 1⟩, true) ∧
      persistentPerform printable store registry.persisted
          (.replaceGeneration reservation sessionRef containerRef) =
        (⟨some (registry.generation + 1), registry.reservations.set (reservation.rearm
          registry.generation ⟨sessionRef, containerRef⟩ .reserved none)⟩, true) := by
  simp only [perform, EphemeralRegistry.replaceGeneration, hreplaceable,
    if_true] at hroom ⊢
  have hget : registry.reservations.get reservation.recipientEndpointId = some reservation := by
    simp only [replaceable, Bool.and_eq_true, beq_iff_eq] at hreplaceable
    exact hreplaceable.2
  have hcurrent : registry.persisted.current reservation = true := current_iff.mpr hget
  have hbelow : roomLeft registry.generation = true := by
    simp only [roomLeft, decide_eq_true_eq]
    omega
  refine ⟨rfl, ?_⟩
  simp only [persistentPerform, usableReservations_persisted hsane, Option.any_some, hreplaceable,
    if_true]
  apply @delegate_of_fence printable store registry _ hsane _
    (reservation.rearm registry.generation ⟨sessionRef, containerRef⟩ .reserved none)
  simp only [WakeRequest.apply, CodexWake.replace, hcurrent, hbelow, Bool.not_true, Bool.or_self,
    Bool.false_eq_true, if_false]
  rfl

end Calls

/-- Both registries. -/
structure Registries where
  registry : EphemeralRegistry
  authority : WakeAuthority

/-- Both registries without fences. -/
def Registries.start : Registries := ⟨EphemeralRegistry.empty, ⟨some 0, Table.empty⟩⟩

section Runs

variable (printable : Char → Bool)

/-- Make a call to both registries while the Relay store is the given one. -/
def Registries.step (registries : Registries) (call : RelayStore × RegistryCall) : Registries :=
  ⟨(registries.registry.perform printable call.2).1,
    (persistentPerform printable call.1 registries.authority call.2).1⟩

/-- Both registries accept or refuse the call, and afterwards hold the same fences. -/
def Alike (registries : Registries) (call : RelayStore × RegistryCall) : Prop :=
  (registries.registry.perform printable call.2).2 =
      (persistentPerform printable call.1 registries.authority call.2).2 ∧
    ∀ endpointId, (registries.step printable call).registry.reservations.get endpointId =
      (registries.step printable call).authority.reservations.get endpointId

def AssumedOf (registries : Registries) (call : RelayStore × RegistryCall) : Prop :=
  Assumed printable call.1 registries.registry call.2

def UndriftingOf (registries : Registries) (call : RelayStore × RegistryCall) : Prop :=
  Undrifting printable registries.registry call.2

/-- The persisted authority is that of a sane registry in memory. -/
def Agree (registries : Registries) : Prop :=
  registries.authority = registries.registry.persisted ∧ Sane printable registries.registry

theorem agree_start : Agree printable Registries.start := by
  refine ⟨rfl, ⟨?_, fun item hitem => nomatch hitem⟩⟩
  apply (accepted_iff rfl).mpr
  refine ⟨Nat.zero_le _, ⟨Int.le_refl 0, by decide⟩, fun item hitem => nomatch hitem⟩

theorem Agree.step {registries : Registries} {call : RelayStore × RegistryCall}
    (hagree : Agree printable registries) (hassumed : AssumedOf printable registries call)
    (hundrifting : UndriftingOf printable registries call) :
    Agree printable (registries.step printable call) ∧ Alike printable registries call := by
  obtain ⟨hauthority, hsane⟩ := hagree
  obtain ⟨hfollows, hsane'⟩ := perform_follows hsane hassumed hundrifting
  rw [← hauthority] at hfollows
  have hstep : (registries.step printable call).authority =
      (registries.step printable call).registry.persisted := congrArg Prod.fst hfollows
  refine ⟨⟨hstep, hsane'⟩, (congrArg Prod.snd hfollows).symm, fun endpointId => ?_⟩
  rw [hstep]
  rfl

/-- Along every run that meets the assumptions and makes none of the calls that the
registries answer differently, both accept the same calls and hold the same fences
after each.  A replacement that follows such a run is accepted by both, and the
fences then differ only in its outcome. -/
theorem registry_agreement (calls : List (RelayStore × RegistryCall))
    (hassumed : Along (Registries.step printable) (AssumedOf printable) Registries.start calls)
    (hundrifting : Along (Registries.step printable) (UndriftingOf printable) Registries.start
      calls) :
    Along (Registries.step printable) (Alike printable) Registries.start calls ∧
      ∀ store reservation sessionRef containerRef,
        AssumedOf printable (run (Registries.step printable) Registries.start calls)
          (store, .replaceGeneration reservation sessionRef containerRef) →
        replaceable (run (Registries.step printable) Registries.start calls).registry.reservations
          printable reservation sessionRef containerRef →
        ∃ generation table,
          (run (Registries.step printable) Registries.start calls).registry.perform printable
              (.replaceGeneration reservation sessionRef containerRef) =
            (⟨Table.set table (reservation.rearm generation ⟨sessionRef, containerRef⟩
              .prepared none), generation + 1⟩, true) ∧
          persistentPerform printable store
              (run (Registries.step printable) Registries.start calls).authority
              (.replaceGeneration reservation sessionRef containerRef) =
            (⟨some (generation + 1), Table.set table (reservation.rearm generation
              ⟨sessionRef, containerRef⟩ .reserved none)⟩, true) := by
  have hboth := hassumed.and hundrifting
  have hpreserved : ∀ registries call,
      AssumedOf printable registries call ∧ UndriftingOf printable registries call →
      Agree printable registries → Agree printable (registries.step printable call) :=
    fun registries call hcall hagree => (hagree.step printable hcall.1 hcall.2).1
  constructor
  · have halong := hboth.with_invariant (agree_start printable) hpreserved
    apply halong.mono
    rintro registries call ⟨⟨hcall, hcall'⟩, hagree⟩
    exact (hagree.step printable hcall hcall').2
  · intro store reservation sessionRef containerRef hlast hreplaceable
    obtain ⟨hauthority, hsane⟩ := hboth.invariant (agree_start printable) hpreserved
    have hdiffers := @replaceGeneration_differs printable store _ hsane _ _ _ hlast.room
      hreplaceable
    rw [hauthority]
    exact ⟨_, _, hdiffers⟩

def exampleReserve : RelayStore × RegistryCall :=
  (exampleRelay, .reserve exampleEndpointId exampleDeliveryId "recipient" "repo:a" none
    (seconds 1000))

/-- The replacement of the reserved fence for the same scope. -/
def exampleReplacement : RelayStore × RegistryCall :=
  (exampleRelay, .replaceGeneration exampleFence "recipient" "repo:a")

theorem exampleReserve_assumed :
    AssumedOf asciiPrintable Registries.start exampleReserve := by
  refine ⟨?_, fun _ _ _ hcall => (nomatch hcall), by decide +kernel⟩
  intro endpointId deliveryId sessionRef containerRef stillPending now hcall
  cases hcall
  exact ⟨⟨none, by decide +kernel⟩, by decide⟩

/-- The first reservation of a run. -/
theorem registry_agreement_reserve :
    Along (Registries.step asciiPrintable) (Alike asciiPrintable) Registries.start
      [exampleReserve] :=
  (registry_agreement asciiPrintable [exampleReserve] ⟨exampleReserve_assumed, trivial⟩
    ⟨trivial, trivial⟩).1

/-- After a replacement for the unchanged scope of a pending delivery, the fence is
prepared in memory and reserved in the database. -/
theorem replacement_drifts :
    Along (Registries.step asciiPrintable) (AssumedOf asciiPrintable) Registries.start
        [exampleReserve, exampleReplacement] ∧
      ¬ Along (Registries.step asciiPrintable) (Alike asciiPrintable) Registries.start
        [exampleReserve, exampleReplacement] := by
  constructor
  · refine ⟨exampleReserve_assumed, ⟨fun _ _ _ _ _ _ hcall => (nomatch hcall),
      fun _ _ _ hcall => (nomatch hcall), by decide +kernel⟩, trivial⟩
  · rintro ⟨-, ⟨-, hfences⟩, -⟩
    have hsame := hfences exampleEndpointId
    revert hsame
    decide +kernel

end Runs

end Pallium.CodexWake
