import Pallium.CodexWake.Recovery

/-!
# Closure of the wake authority

Every transition validates all stored rows before it does anything.  What the
transitions write is accepted by that validation, with two exceptions: a clock
reading before 1970 gives a negative deadline, and a reconciliation that replaces a
fence takes over the scope of the session without checking it.
-/

namespace Pallium.CodexWake

open Pallium.Calendar Pallium.Relay Pallium.Run Pallium.Transaction

section Transitions

variable {printable : Char → Bool} {store : RelayStore} {marker : ℤ}
  {authority after : WakeAuthority} {answer : Option WakeAnswer} {item : CodexWakeReservation}

theorem stored_valid (haccepted : authority.accepted printable)
    (hmarker : authority.marker = some marker) {endpointId : String}
    (hget : authority.reservations.get endpointId = some item) :
    item.valid printable ∧ item.generation ≤ marker :=
  ((accepted_iff hmarker).mp haccepted).2.2 item (Table.mem_of_get hget)

theorem valid_rearm {target : WakeTarget} {outcome : WakeOutcome}
    {retryNotBefore : Option ℤ} (hmarker : 0 ≤ marker) (hroom : roomLeft marker)
    (hscope : validScope printable item.recipientEndpointId item.deliveryId target.sessionRef
      target.containerRef)
    (hdeadline : ∀ deadline, retryNotBefore = some deadline → 0 ≤ deadline) :
    (item.rearm marker target outcome retryNotBefore).valid printable := by
  have hbelow : marker < integerLimit - 1 := by simpa [roomLeft] using hroom
  refine valid_iff.mpr ⟨hscope, ⟨?_, ?_⟩, ?_, hdeadline⟩
  · change 1 ≤ marker + 1
    omega
  · change marker + 1 < integerLimit
    omega
  · intro attempts hattempts
    cases hattempts

/-- Giving a current fence the next generation for a valid scope. -/
theorem accepted_rearm (haccepted : authority.accepted printable)
    (hmarker : authority.marker = some marker) (hroom : roomLeft marker) {target : WakeTarget}
    {outcome : WakeOutcome}
    {retryNotBefore : Option ℤ}
    (hget : authority.reservations.get item.recipientEndpointId = some item)
    (hscope : validScope printable item.recipientEndpointId item.deliveryId target.sessionRef
      target.containerRef)
    (hdeadline : ∀ deadline, retryNotBefore = some deadline → 0 ≤ deadline) :
    (authority.grant marker
      (item.rearm marker target outcome retryNotBefore)).accepted printable := by
  obtain ⟨hlength, hbounds, -⟩ := (accepted_iff hmarker).mp haccepted
  apply accepted_grant haccepted hmarker hroom rfl
  · exact valid_rearm hbounds.1 hroom hscope hdeadline
  · have hsame := @Table.length_set_of_get _ _ _ _ authority.reservations
      (item.rearm marker target outcome retryNotBefore) item hget
    exact hsame.le.trans hlength

/-- The step does not write what the validation refuses: a deadline that a native
attempt, a retry or a clamp stores is not negative, and the scope that replaces the
one of a fence is valid. -/
def Closing (printable : Char → Bool) (database : Database) : WakeOp → Prop
  | .transition (.beginNativeAttempt expected now later) =>
    Startable database.relay database.authority expected now → 0 ≤ later + wakeRetryCooldown
  | .transition (.retry expected target now) =>
    ∀ marker, Retriable database.relay marker database.authority expected target now →
      expected.retryNotBefore = none → 0 ≤ now
  | .transition (.reconcile expected now) =>
    database.authority.reservations.get expected.recipientEndpointId = some expected →
    ∀ state, reservationState database.relay expected.deliveryId now = some state →
      (ownClaim expected state → ∀ target, state.wakeTarget = some target →
        validScope printable expected.recipientEndpointId expected.deliveryId target.sessionRef
          target.containerRef) ∧
      (overdue expected now → expected.outcome ≠ .prepared → 0 ≤ now + wakeRetryCooldown)
  | _ => True

theorem apply_accepted {relay : RelayStore} {request : WakeRequest}
    (haccepted : authority.accepted printable) (hmarker : authority.marker = some marker)
    (hadmitted : request.admitted printable)
    (hclosing : Closing printable ⟨relay, authority⟩ (.transition request))
    (happly : request.apply relay marker authority = .ok (after, answer)) :
    after.accepted printable := by
  obtain ⟨hlength, hbounds, -⟩ := (accepted_iff hmarker).mp haccepted
  cases request with
  | reserve endpointId deliveryId sessionRef containerRef now =>
    rcases reserve_cases happly with ⟨rfl, -⟩ | ⟨hreservable, rfl, -⟩
    · exact haccepted
    · have hbelow : marker < integerLimit - 1 := by simpa [roomLeft] using hreservable.room
      apply accepted_grant haccepted hmarker hreservable.room rfl
      · refine valid_iff.mpr ⟨hadmitted, ⟨?_, ?_⟩, ?_, ?_⟩
        · change 1 ≤ marker + 1
          omega
        · change marker + 1 < integerLimit
          omega
        · intro attempts hattempts
          cases hattempts
        · intro deadline hdeadline
          cases hdeadline
      · exact (Table.length_set_le _ _).trans hreservable.capacity
  | correlate endpointId deliveryId sessionRef containerRef attempts expectedGeneration =>
    rcases correlate_cases happly with ⟨rfl, -⟩ | ⟨row, hget, -, -, -, rfl, -⟩
    · exact haccepted
    · obtain ⟨hvalid, hle⟩ := stored_valid haccepted hmarker hget
      have hendpoint : row.recipientEndpointId = endpointId := Table.key_of_get hget
      simp only [WakeRequest.admitted, Bool.and_eq_true, decide_eq_true_eq] at hadmitted
      obtain ⟨hscope, hgeneration, -, hdeadline⟩ := valid_iff.mp hvalid
      apply @accepted_write _ _ _ { row with correlatedClaimAttempts := some attempts } haccepted
        hmarker row (hendpoint ▸ hget) _ hle
      refine valid_iff.mpr ⟨hscope, hgeneration, ?_, hdeadline⟩
      intro count hcount
      cases hcount
      exact hadmitted.1.2
  | releaseDelivery deliveryId =>
    rcases releaseDelivery_cases happly with ⟨rfl, -⟩ | ⟨item, -, -, rfl, -⟩
    · exact haccepted
    · exact accepted_eraseAll haccepted hmarker _
  | release reservations =>
    obtain ⟨removed, rfl, -, -⟩ := release_eq_ok happly
    exact accepted_eraseAll haccepted hmarker _
  | retryTarget expected now =>
    rcases retryTarget_cases happly with ⟨rfl, -⟩ | ⟨rfl, -⟩
    · exact haccepted
    · exact haccepted
  | outcome expected result =>
    rcases recordOutcome_cases happly with ⟨rfl, -⟩ | ⟨row, hget, rfl, -⟩
    · exact haccepted
    · obtain ⟨hvalid, hle⟩ := stored_valid haccepted hmarker hget
      have hendpoint : row.recipientEndpointId = expected.recipientEndpointId :=
        Table.key_of_get hget
      exact @accepted_write _ _ _ { row with outcome := result } haccepted hmarker row
        (hendpoint ▸ hget) hvalid hle
  | beginNativeAttempt expected now later =>
    rcases beginNativeAttempt_cases happly with ⟨rfl, -⟩ | ⟨hstartable, rfl, -⟩
    · exact haccepted
    · obtain ⟨hvalid, hle⟩ := stored_valid haccepted hmarker hstartable.current
      obtain ⟨hscope, hgeneration, hattempts, -⟩ := valid_iff.mp hvalid
      apply @accepted_write _ _ _ (expected.begun later) haccepted hmarker expected
        hstartable.current _ hle
      refine valid_iff.mpr ⟨hscope, hgeneration, hattempts, ?_⟩
      intro deadline hdeadline
      cases hdeadline
      exact hclosing hstartable
  | retry expected target now =>
    rcases retry_cases happly with ⟨rfl, -⟩ | ⟨hretriable, rfl, -⟩
    · exact haccepted
    · obtain ⟨hvalid, -⟩ := stored_valid haccepted hmarker hretriable.current
      apply accepted_rearm haccepted hmarker hretriable.room hretriable.current hadmitted
      intro deadline hdeadline
      rw [retryMarker, Option.some.injEq] at hdeadline
      cases hstored : expected.retryNotBefore with
      | none =>
        rw [hstored, Option.getD_none, min_self] at hdeadline
        exact hdeadline ▸ hclosing marker hretriable hstored
      | some previous =>
        have hprevious := (valid_iff.mp hvalid).2.2.2 previous hstored
        have helapsed : previous ≤ now :=
          retryCooldownElapsed_iff.mp hretriable.cooldown previous hstored
        rw [hstored, Option.getD_some, min_eq_right helapsed] at hdeadline
        exact hdeadline ▸ hprevious
  | reconcile expected now =>
    rcases reconcile_cases happly with ⟨rfl, -⟩ | ⟨hget, found, -, hfound⟩
    · exact haccepted
    · cases hfound with
      | missing hmissing => exact accepted_eraseAll haccepted hmarker _
      | terminal hstate hterminal => exact accepted_eraseAll haccepted hmarker _
      | @replaced state target hstate hclaim htarget hroom =>
        apply accepted_rearm haccepted hmarker hroom hget
          ((hclosing hget state hstate).1 hclaim target htarget)
        intro deadline hdeadline
        cases hdeadline
      | resume hstate hprepared huncorrelated hpending htarget => exact haccepted
      | @clamped state hstate hspent huncorrelated hoverdue hpending =>
        obtain ⟨hvalid, hle⟩ := stored_valid haccepted hmarker hget
        obtain ⟨hscope, hgeneration, hattempts, -⟩ := valid_iff.mp hvalid
        apply @accepted_write _ _ _
          { expected with retryNotBefore := some (now + wakeRetryCooldown) } haccepted hmarker
          expected hget _ hle
        refine valid_iff.mpr ⟨hscope, hgeneration, hattempts, ?_⟩
        intro deadline hdeadline
        cases hdeadline
        exact (hclosing hget state hstate).2 hoverdue hspent
      | retry hstate hretryable hpending => exact haccepted
  | replace expected sessionRef containerRef =>
    rcases replace_cases happly with ⟨rfl, -⟩ | ⟨hget, hroom, rfl, -⟩
    · exact haccepted
    · have hscope : validScope printable expected.recipientEndpointId expected.deliveryId
          sessionRef containerRef := hadmitted
      apply @accepted_rearm printable marker authority expected haccepted hmarker hroom
        ⟨sessionRef, containerRef⟩ .reserved none hget hscope
      intro deadline hdeadline
      cases hdeadline

end Transitions

section Runs

variable (host : Host) (printable : Char → Bool)

theorem accepted_initialized {store : RelayStore} {reservations : List CodexWakeReservation}
    {authority : WakeAuthority} (haccepted : authority.accepted printable)
    (hloadable : loadable printable reservations) :
    (relayCodexWakeInitialize store reservations authority).1.accepted printable := by
  rcases relayCodexWakeInitialize_cases store reservations authority
    with hsame | ⟨-, hroom, rows, rfl, -, hafter⟩
  · rw [hsame]
    exact haccepted
  · rw [hafter]
    simp only [loadable, Bool.and_eq_true, decide_eq_true_eq, List.all_eq_true] at hloadable
    have hhigh : 0 ≤ highWater store rows.rows := (le_foldl_max _ 0).1
    have hmarker : (⟨some (highWater store rows.rows), rows⟩ : WakeAuthority).marker =
        some (highWater store rows.rows) := rfl
    apply (accepted_iff hmarker).mpr
    have hbelow : highWater store rows.rows < integerLimit := by
      generalize highWater store rows.rows = high at hroom
      omega
    refine ⟨hloadable.1, ⟨hhigh, hbelow⟩, ?_⟩
    intro item hitem
    exact ⟨(hloadable.2 item hitem).1.1, generation_le_highWater hitem⟩

theorem step_accepted {database : Database} {op : WakeOp}
    (haccepted : database.authority.accepted printable)
    (hclosing : Closing printable database op) :
    (database.step host printable op).authority.accepted printable := by
  cases op with
  | relay op => exact haccepted
  | initialization reservations =>
    rw [Database.step]
    split
    · next hloadable => exact accepted_initialized printable haccepted hloadable
    · exact haccepted
  | transition request =>
    simp only [Database.step]
    rcases respond_cases printable database request with hsame |
      ⟨marker, after, answer, hmarker, -, hadmitted, happly, hrespond⟩
    · rw [hsame]
      exact haccepted
    · rw [hrespond]
      exact apply_accepted haccepted hmarker hadmitted hclosing happly

/-- From every accepted authority, a run whose steps write no negative deadline and
replace no fence for an invalid scope leaves an accepted authority. -/
theorem wake_authority_closure {database : Database} {ops : List WakeOp}
    (haccepted : database.authority.accepted printable)
    (hclosing : Along (Database.step host printable) (Closing printable) database ops) :
    (run (Database.step host printable) database ops).authority.accepted printable :=
  hclosing.invariant haccepted fun _ _ hstep hbefore => step_accepted host printable hbefore hstep

/-- A turn that claims the delivery of the examples under the first generation. -/
def exampleWakeTurn : TurnRequest :=
  { exampleTurn .codex "recipient" with
    exactDeliveryId := some exampleDeliveryId
    codexWakeEndpointId := some exampleEndpointId
    codexWakeGeneration := some 1 }

/-- A turn that moves the session to a scope with a no-break space in its name. -/
def exampleMove : TurnRequest :=
  { exampleTurn .codex "recipient" with
    containerRef := "repo:a" ++ String.singleton (Char.ofNat 0xA0) ++ "b"
    previousContainerRef := some "repo:a"
    previousEndpointId := some exampleEndpointId
    previousScopeGeneration := some 0 }

/-- A wake is reserved, its delivery claimed, and the session moved; the lease runs
out and the fence is reconciled. -/
def exampleMoved : List WakeOp :=
  exampleRelayOps.map WakeOp.relay ++
    [.initialization [],
      .transition (.reserve exampleEndpointId exampleDeliveryId "recipient" "repo:a"
        (seconds 1000)),
      .relay (.turn exampleWakeTurn exampleClock (seconds 1000)),
      .relay (.turn exampleMove exampleClock (seconds 1001)),
      .transition (.reconcile exampleFence (seconds 1061))]

/-- The first reservation. -/
theorem wake_authority_closure_reserve :
    (run (Database.step exampleHost asciiPrintable) Database.empty
      (exampleBegun.take 5)).authority.accepted asciiPrintable :=
  wake_authority_closure exampleHost asciiPrintable rfl
    ⟨trivial, trivial, trivial, trivial, trivial, trivial⟩

/-- The reconciliation after the move leaves an authority that refuses everything. -/
theorem moved_authority_rejected :
    Database.empty.authority.accepted asciiPrintable ∧
      ¬ (run (Database.step exampleHost asciiPrintable) Database.empty
        exampleMoved).authority.accepted asciiPrintable := by
  refine ⟨rfl, ?_⟩
  decide +kernel

end Runs

end Pallium.CodexWake
