import Pallium.CodexWake.Generations
import Pallium.Relay.Lifecycle

/-!
# The trial fence

A trial enrols one Codex endpoint before any delivery is addressed to it, binds
one pending delivery and is spent once, before the native write.  The row of a
trial is never deleted; what may happen to it, and what a spent trial still
guarantees at the moment of the native write, is shown over every run.
-/

namespace Pallium.CodexWake

open Pallium.Relay Pallium.Run Pallium.Transaction

structure CodexTrial where
  recipientEndpointId : String
  trialId : String
  sessionRef : String
  containerRef : String
  scopeGeneration : ℕ
  deliveryId : Option String
  spent : Bool
  deriving DecidableEq, Repr

instance : Keyed CodexTrial String := ⟨CodexTrial.recipientEndpointId⟩

@[simp]
theorem key_trial (row : CodexTrial) : key row = row.recipientEndpointId := rfl

/-- The database with the rows of `relay_codex_trial` and the endpoints whose session
has the mark `trial_enrolled`. -/
structure TrialDatabase where
  database : Database
  trials : Table CodexTrial
  trialEnrolled : List String
  deriving DecidableEq

def TrialDatabase.empty : TrialDatabase := ⟨Database.empty, Table.empty, []⟩

def codexTrialEndpointCurrent (store : RelayStore) (session : RelaySession) (row : CodexTrial) :
    Bool :=
  session.runtime == .codex && session.state == .active &&
    row.sessionRef == session.sessionRef && row.containerRef == session.containerRef &&
    row.scopeGeneration == store.scopeGeneration session.id

def codexTrialPending (store : RelayStore) (row : CodexTrial) (deliveryId : String) (now : ℤ) :
    Bool :=
  (store.deliveryWithMessage deliveryId).any fun (delivery, message) =>
    delivery.recipientEndpointId == some row.recipientEndpointId &&
      delivery.recipientRuntime == .codex && delivery.recipientSessionRef == row.sessionRef &&
      delivery.recipientContainerRef == some row.containerRef &&
      delivery.state == .pending && delivery.attempts == 0 && delivery.claimToken.isNone &&
      delivery.claimedAt.isNone && decide (now < message.expiresAt)

namespace TrialDatabase

variable (state : TrialDatabase)

/-- The checks of `relay_codex_trial_enroll`. -/
def enrollable (endpointId sessionRef containerRef : String) : Bool :=
  ((state.database.relay.sessions.get endpointId).any fun session =>
      session.runtime == .codex && session.state == .active && session.sessionRef == sessionRef &&
        session.containerRef == containerRef) &&
    !state.trialEnrolled.contains endpointId && (state.trials.get endpointId).isNone &&
    !(state.database.relay.deliveries.rows.any fun delivery =>
      delivery.recipientEndpointId == some endpointId) &&
    (state.database.authority.reservations.get endpointId).isNone

/-- `relay_codex_trial_enroll`; a trial id may be used once. -/
def relayCodexTrialEnroll (endpointId sessionRef containerRef trialId : String) :
    TrialDatabase × Except WakeError Bool :=
  transaction (fun state => do
    if state.enrollable endpointId sessionRef containerRef then
      require (state.trials.rows.all fun row => row.trialId != trialId) .integrity
      let row : CodexTrial :=
        { recipientEndpointId := endpointId
          trialId := trialId
          sessionRef := sessionRef
          containerRef := containerRef
          scopeGeneration := state.database.relay.scopeGeneration endpointId
          deliveryId := none
          spent := false }
      let trials ← orRaise (state.trials.insertNew row) .integrity
      pure ({ state with trials := trials, trialEnrolled := endpointId :: state.trialEnrolled },
        true)
    else pure (state, false)) state

/-- The row of an unspent trial whose endpoint is as it was when it was enrolled and
whose delivery is pending. -/
def openTrial (endpointId trialId deliveryId : String) (bound : Option String) (now : ℤ) :
    Option CodexTrial :=
  (state.database.relay.sessions.get endpointId).bind fun session =>
    (state.trials.get endpointId).filter fun row =>
      state.trialEnrolled.contains endpointId && row.trialId == trialId &&
        row.deliveryId == bound && !row.spent &&
        codexTrialEndpointCurrent state.database.relay session row &&
        (state.database.authority.reservations.get endpointId).isNone &&
        codexTrialPending state.database.relay row deliveryId now

/-- `relay_codex_trial_bind`; a delivery may be bound once. -/
def relayCodexTrialBind (endpointId trialId deliveryId : String) (now : ℤ) :
    TrialDatabase × Except WakeError Bool :=
  transaction (fun state =>
    match state.openTrial endpointId trialId deliveryId none now with
    | none => pure (state, false)
    | some row => do
      require (state.trials.rows.all fun other => other.deliveryId != some deliveryId) .integrity
      pure ({ state with trials := state.trials.set { row with deliveryId := some deliveryId } },
        true)) state

def relayCodexTrialSpend (endpointId trialId deliveryId : String) (now : ℤ) :
    TrialDatabase × Except WakeError Bool :=
  transaction (fun state =>
    match state.openTrial endpointId trialId deliveryId (some deliveryId) now with
    | none => pure (state, false)
    | some row => pure ({ state with trials := state.trials.set { row with spent := true } }, true))
    state

def relayCodexTrialActionReady (endpointId trialId deliveryId : String) (now : ℤ) : Bool :=
  (state.database.relay.sessions.get endpointId).any fun session =>
    (state.trials.get endpointId).any fun row =>
      state.trialEnrolled.contains endpointId && row.trialId == trialId &&
        row.deliveryId == some deliveryId && row.spent &&
        codexTrialEndpointCurrent state.database.relay session row &&
        codexTrialPending state.database.relay row deliveryId now

end TrialDatabase

inductive TrialOp
  | wake (op : WakeOp)
  | enroll (endpointId sessionRef containerRef trialId : String)
  | bind (endpointId trialId deliveryId : String) (now : ℤ)
  | spend (endpointId trialId deliveryId : String) (now : ℤ)

section Steps

variable (host : Host) (printable : Char → Bool)

def TrialDatabase.step (state : TrialDatabase) : TrialOp → TrialDatabase
  | .wake op => { state with database := state.database.step host printable op }
  | .enroll endpointId sessionRef containerRef trialId =>
    (state.relayCodexTrialEnroll endpointId sessionRef containerRef trialId).1
  | .bind endpointId trialId deliveryId now =>
    (state.relayCodexTrialBind endpointId trialId deliveryId now).1
  | .spend endpointId trialId deliveryId now =>
    (state.relayCodexTrialSpend endpointId trialId deliveryId now).1

/-- The database after a run from the empty one. -/
def trialReached (ops : List TrialOp) : TrialDatabase :=
  run (TrialDatabase.step host printable) TrialDatabase.empty ops

/-- The endpoint whose trial the step spends. -/
def spentEndpoint (state : TrialDatabase) : TrialOp → Option String
  | .spend endpointId trialId deliveryId now =>
    if (state.relayCodexTrialSpend endpointId trialId deliveryId now).2 = .ok true then
      some endpointId
    else none
  | _ => none

/-- The endpoints whose trials a run has spent. -/
def spentEndpoints (ops : List TrialOp) : List String :=
  observations (TrialDatabase.step host printable) spentEndpoint TrialDatabase.empty ops

end Steps

/-- What a step may do to the row of a trial: nothing, bind a delivery to an unspent
row without one, or spend an unspent row with one. -/
inductive TrialStep (row : CodexTrial) : CodexTrial → Prop
  | same : TrialStep row row
  | bound (deliveryId : String) (hunbound : row.deliveryId = none) (hunspent : row.spent = false) :
      TrialStep row { row with deliveryId := some deliveryId }
  | spent (deliveryId : String) (hbound : row.deliveryId = some deliveryId)
      (hunspent : row.spent = false) : TrialStep row { row with spent := true }

/-- What remains of the row of a trial: its identity, its delivery, and everything
once it is spent. -/
structure TrialKept (row later : CodexTrial) : Prop where
  endpoint : later.recipientEndpointId = row.recipientEndpointId
  trial : later.trialId = row.trialId
  sessionRef : later.sessionRef = row.sessionRef
  containerRef : later.containerRef = row.containerRef
  generation : later.scopeGeneration = row.scopeGeneration
  delivery : ∀ deliveryId, row.deliveryId = some deliveryId → later.deliveryId = some deliveryId
  spent : row.spent → later = row

theorem TrialKept.refl (row : CodexTrial) : TrialKept row row :=
  ⟨rfl, rfl, rfl, rfl, rfl, fun _ => id, fun _ => rfl⟩

theorem TrialKept.trans {first second third : CodexTrial} (hfirst : TrialKept first second)
    (hsecond : TrialKept second third) : TrialKept first third where
  endpoint := hsecond.endpoint.trans hfirst.endpoint
  trial := hsecond.trial.trans hfirst.trial
  sessionRef := hsecond.sessionRef.trans hfirst.sessionRef
  containerRef := hsecond.containerRef.trans hfirst.containerRef
  generation := hsecond.generation.trans hfirst.generation
  delivery := fun deliveryId hdelivery =>
    hsecond.delivery deliveryId (hfirst.delivery deliveryId hdelivery)
  spent := by
    intro hspent
    obtain rfl := hfirst.spent hspent
    exact hsecond.spent hspent

theorem TrialStep.kept {row next : CodexTrial} (hstep : TrialStep row next) :
    TrialKept row next := by
  cases hstep with
  | same => exact TrialKept.refl row
  | bound deliveryId hunbound hunspent =>
    refine ⟨rfl, rfl, rfl, rfl, rfl, fun other hother => ?_, fun hspent => ?_⟩
    · rw [hunbound] at hother
      cases hother
    · rw [hunspent] at hspent
      cases hspent
  | spent deliveryId hbound hunspent =>
    refine ⟨rfl, rfl, rfl, rfl, rfl, fun other hother => hother, fun hspent => ?_⟩
    rw [hunspent] at hspent
    cases hspent

section Operations

variable {state : TrialDatabase} {endpointId trialId deliveryId : String} {now : ℤ}

theorem openTrial_eq_some {bound : Option String} {row : CodexTrial}
    (hopen : state.openTrial endpointId trialId deliveryId bound now = some row) :
    state.trials.get endpointId = some row ∧ row.recipientEndpointId = endpointId ∧
      row.deliveryId = bound ∧ row.spent = false := by
  obtain ⟨session, -, hfiltered⟩ := Option.bind_eq_some_iff.mp hopen
  obtain ⟨hget, hchecks⟩ := Option.filter_eq_some_iff.mp hfiltered
  simp only [Bool.and_eq_true, beq_iff_eq, Bool.not_eq_true'] at hchecks
  exact ⟨hget, Table.key_of_get hget, hchecks.1.1.1.1.2, hchecks.1.1.1.2⟩

theorem relayCodexTrialBind_cases :
    (state.relayCodexTrialBind endpointId trialId deliveryId now).1 = state ∨
      ∃ row, state.trials.get endpointId = some row ∧ row.recipientEndpointId = endpointId ∧
        row.deliveryId = none ∧ row.spent = false ∧
        (state.relayCodexTrialBind endpointId trialId deliveryId now).1 =
          { state with trials := state.trials.set { row with deliveryId := some deliveryId } } := by
  rw [TrialDatabase.relayCodexTrialBind]
  rcases transaction_cases _ state with ⟨after, result, hbody, htransaction⟩ |
    ⟨error, -, htransaction⟩
  · rw [htransaction]
    cases hopen : state.openTrial endpointId trialId deliveryId none now with
    | none =>
      rw [hopen] at hbody
      cases hbody
      exact Or.inl rfl
    | some row =>
      rw [hopen] at hbody
      obtain ⟨-, -, hafter⟩ := bind_eq_ok.mp hbody
      cases hafter
      obtain ⟨hget, hendpoint, hbound, hspent⟩ := openTrial_eq_some hopen
      exact Or.inr ⟨row, hget, hendpoint, hbound, hspent, rfl⟩
  · rw [htransaction]
    exact Or.inl rfl

/-- A spend that fails changes nothing, and one that succeeds marks the unspent row
with the delivery. -/
theorem relayCodexTrialSpend_cases :
    ((state.relayCodexTrialSpend endpointId trialId deliveryId now).1 = state ∧
        (state.relayCodexTrialSpend endpointId trialId deliveryId now).2 ≠ .ok true) ∨
      ∃ row, state.trials.get endpointId = some row ∧ row.recipientEndpointId = endpointId ∧
        row.deliveryId = some deliveryId ∧ row.spent = false ∧
        (state.relayCodexTrialSpend endpointId trialId deliveryId now).1 =
          { state with trials := state.trials.set { row with spent := true } } := by
  rw [TrialDatabase.relayCodexTrialSpend]
  cases hopen : state.openTrial endpointId trialId deliveryId (some deliveryId) now with
  | none =>
    refine Or.inl ?_
    rw [@transaction_of_ok _ _ _ _ state state false (by simp only [hopen]; rfl)]
    exact ⟨rfl, by simp⟩
  | some row =>
    obtain ⟨hget, hendpoint, hbound, hspent⟩ := openTrial_eq_some hopen
    refine Or.inr ⟨row, hget, hendpoint, hbound, hspent, ?_⟩
    rw [transaction_of_ok (by simp only [hopen]; rfl)]

/-- An enrolment changes nothing or adds the first row of an endpoint, with the
scope that its session then has. -/
theorem relayCodexTrialEnroll_cases {sessionRef containerRef : String} :
    (state.relayCodexTrialEnroll endpointId sessionRef containerRef trialId).1 = state ∨
      ∃ session trials enrolled, state.database.relay.sessions.get endpointId = some session ∧
        session.sessionRef = sessionRef ∧ session.containerRef = containerRef ∧
        state.trials.get endpointId = none ∧
        state.trials.insertNew ⟨endpointId, trialId, sessionRef, containerRef,
          state.database.relay.scopeGeneration endpointId, none, false⟩ = some trials ∧
        (state.relayCodexTrialEnroll endpointId sessionRef containerRef trialId).1 =
          ⟨state.database, trials, enrolled⟩ := by
  rw [TrialDatabase.relayCodexTrialEnroll]
  rcases transaction_cases _ state with ⟨after, result, hbody, htransaction⟩ |
    ⟨error, -, htransaction⟩
  · rw [htransaction]
    split at hbody
    · next henrollable =>
      obtain ⟨_, -, hrest⟩ := bind_eq_ok.mp hbody
      obtain ⟨trials, htrials, hafter⟩ := bind_eq_ok.mp hrest
      cases hafter
      simp only [TrialDatabase.enrollable, Bool.and_eq_true, Option.any_eq_true, beq_iff_eq,
        Option.isNone_iff_eq_none] at henrollable
      obtain ⟨⟨⟨⟨⟨session, hsession, hscope⟩, -⟩, hnone⟩, -⟩, -⟩ := henrollable
      exact Or.inr ⟨session, trials, _, hsession, hscope.1.2, hscope.2, hnone,
        orRaise_eq_ok.mp htrials, rfl⟩
    · cases hbody
      exact Or.inl rfl
  · rw [htransaction]
    exact Or.inl rfl

end Operations

section Runs

open TrialDatabase (step empty)

variable (host : Host) (printable : Char → Bool)

variable {row : CodexTrial} {op : TrialOp} {endpointId : String} {state : TrialDatabase}

theorem get_set_trial {trials : Table CodexTrial} {endpointId other : String} {next : CodexTrial}
    (hendpoint : next.recipientEndpointId = endpointId) (hget : trials.get other = some row) :
    (trials.set next).get other = some (if other = endpointId then next else row) := by
  rw [Table.get_set, key_trial, hendpoint]
  split
  · rfl
  · exact hget

theorem step_trialStep (hget : state.trials.get endpointId = some row) :
    ∃ next, (state.step host printable op).trials.get endpointId = some next ∧
      TrialStep row next := by
  have hsame : ∃ next, state.trials.get endpointId = some next ∧ TrialStep row next :=
    ⟨row, hget, .same⟩
  cases op with
  | wake op => exact hsame
  | enroll enrolledId sessionRef containerRef trialId =>
    rw [step]
    rcases @relayCodexTrialEnroll_cases state enrolledId trialId sessionRef containerRef with
      hafter | ⟨session, trials, enrolled, -, -, -, hnone, hinsert, hafter⟩
    · rw [hafter]
      exact hsame
    · refine ⟨row, ?_, .same⟩
      rw [hafter]
      have hne : endpointId ≠ enrolledId := by
        rintro rfl
        rw [hnone] at hget
        cases hget
      exact (Table.get_insertNew hinsert endpointId).trans ((if_neg hne).trans hget)
  | bind boundId trialId deliveryId now =>
    rw [step]
    rcases @relayCodexTrialBind_cases state boundId trialId deliveryId now with
      hafter | ⟨old, hold, hendpoint, hunbound, hunspent, hafter⟩
    · rw [hafter]
      exact hsame
    · rw [hafter]
      refine ⟨_, get_set_trial hendpoint hget, ?_⟩
      split
      · next hother =>
        rw [hother, hold] at hget
        cases hget
        exact .bound deliveryId hunbound hunspent
      · exact .same
  | spend spentId trialId deliveryId now =>
    rw [step]
    rcases @relayCodexTrialSpend_cases state spentId trialId deliveryId now with
      ⟨hafter, -⟩ | ⟨old, hold, hendpoint, hbound, hunspent, hafter⟩
    · rw [hafter]
      exact hsame
    · rw [hafter]
      refine ⟨_, get_set_trial hendpoint hget, ?_⟩
      split
      · next hother =>
        rw [hother, hold] at hget
        cases hget
        exact .spent deliveryId hbound hunspent
      · exact .same

theorem run_trialKept (state : TrialDatabase) (ops : List TrialOp)
    (hget : state.trials.get endpointId = some row) :
    ∃ later, (run (step host printable) state ops).trials.get endpointId =
      some later ∧ TrialKept row later := by
  induction ops generalizing state row with
  | nil => exact ⟨row, hget, TrialKept.refl row⟩
  | cons op rest ih =>
    obtain ⟨next, hnext, hstep⟩ := @step_trialStep host printable _ op _ _ hget
    obtain ⟨later, hlater, hkept⟩ := ih _ hnext
    exact ⟨later, hlater, hstep.kept.trans hkept⟩

/-- The row of a trial appears with its enrolment, under the scope of the session. -/
theorem enrolled_of_new (hnone : state.trials.get endpointId = none)
    (hsome : (state.step host printable op).trials.get endpointId = some row) :
    ∃ session trialId, op = .enroll endpointId session.sessionRef session.containerRef trialId ∧
      state.database.relay.sessions.get endpointId = some session ∧
      row = ⟨endpointId, trialId, session.sessionRef, session.containerRef,
        state.database.relay.scopeGeneration endpointId, none, false⟩ := by
  have habsurd : ∀ {found : Option CodexTrial}, state.trials.get endpointId = found →
      found = some row → False := by
    intro found hfound hrow
    rw [hnone] at hfound
    rw [← hfound] at hrow
    cases hrow
  have hother : ∀ (next : CodexTrial) {other : String}, next.recipientEndpointId = other →
      (∃ old, state.trials.get other = some old) →
      (state.trials.set next).get endpointId = some row → False := by
    rintro next other hendpoint ⟨old, hold⟩ hset
    rw [Table.get_set, key_trial, hendpoint] at hset
    split at hset
    · next hsame =>
      rw [← hsame, hnone] at hold
      cases hold
    · exact habsurd rfl hset
  cases op with
  | wake op => exact (habsurd rfl hsome).elim
  | enroll enrolledId sessionRef containerRef trialId =>
    rw [step] at hsome
    rcases @relayCodexTrialEnroll_cases state enrolledId trialId sessionRef containerRef with
      hafter | ⟨session, trials, enrolled, hsession, rfl, rfl, -, hinsert, hafter⟩
    · rw [hafter] at hsome
      exact (habsurd rfl hsome).elim
    · rw [hafter] at hsome
      have hget := Table.get_insertNew hinsert endpointId
      rw [hsome] at hget
      split at hget
      · next hsame =>
        obtain rfl : endpointId = enrolledId := hsame
        exact ⟨session, trialId, rfl, hsession, Option.some.inj hget⟩
      · exact (habsurd rfl hget.symm).elim
  | bind boundId trialId deliveryId now =>
    rw [step] at hsome
    rcases @relayCodexTrialBind_cases state boundId trialId deliveryId now with
      hafter | ⟨old, hold, hendpoint, -, -, hafter⟩
    · rw [hafter] at hsome
      exact (habsurd rfl hsome).elim
    · rw [hafter] at hsome
      exact (hother { old with deliveryId := some deliveryId } hendpoint ⟨old, hold⟩ hsome).elim
  | spend spentId trialId deliveryId now =>
    rw [step] at hsome
    rcases @relayCodexTrialSpend_cases state spentId trialId deliveryId now with
      ⟨hafter, -⟩ | ⟨old, hold, hendpoint, -, -, hafter⟩
    · rw [hafter] at hsome
      exact (habsurd rfl hsome).elim
    · rw [hafter] at hsome
      exact (hother { old with spent := true } hendpoint ⟨old, hold⟩ hsome).elim

variable (ops : List TrialOp)

theorem trialReached_snoc (op : TrialOp) :
    trialReached host printable (ops ++ [op]) =
      (trialReached host printable ops).step host printable op := run_append _ _ _ _

/-- When the row was made, the session of its endpoint had the scope and the generation
that the row records. -/
def RecordedAtEnrolment (ops : List TrialOp) (row : CodexTrial) : Prop :=
  ∃ earlier later session,
    ops = earlier ++ .enroll row.recipientEndpointId session.sessionRef session.containerRef
      row.trialId :: later ∧
    (trialReached host printable earlier).database.relay.sessions.get row.recipientEndpointId =
      some session ∧
    row.sessionRef = session.sessionRef ∧ row.containerRef = session.containerRef ∧
    row.scopeGeneration = (trialReached host printable earlier).database.relay.scopeGeneration
      row.recipientEndpointId

theorem reached_recorded
    (hget : (trialReached host printable ops).trials.get endpointId = some row) :
    RecordedAtEnrolment host printable ops row := by
  induction ops using List.reverseRecOn generalizing row with
  | nil => cases hget
  | append_singleton ops op ih =>
    rw [trialReached_snoc] at hget
    cases hbefore : (trialReached host printable ops).trials.get endpointId with
    | none =>
      obtain ⟨session, trialId, rfl, hsession, rfl⟩ :=
        enrolled_of_new host printable hbefore hget
      exact ⟨ops, [], session, rfl, hsession, rfl, rfl, rfl⟩
    | some old =>
      obtain ⟨next, hnext, hstep⟩ := @step_trialStep host printable _ op _ _ hbefore
      rw [hget] at hnext
      cases hnext
      have hkept := hstep.kept
      obtain ⟨earlier, later, session, rfl, hsession, href, hcontainer, hgeneration⟩ :=
        ih hbefore
      refine ⟨earlier, later ++ [op], session, ?_, ?_, ?_, ?_, ?_⟩
      · rw [hkept.endpoint, hkept.trial, List.append_assoc, List.cons_append]
      · rw [hkept.endpoint, hsession]
      · rw [hkept.sessionRef, href]
      · rw [hkept.containerRef, hcontainer]
      · rw [hkept.generation, hkept.endpoint, hgeneration]

/-- A delivery that is pending without an attempt has been so ever since it was
written. -/
def PendingSince (before after : RelayStore) : Prop :=
  ∀ deliveryId delivery, before.deliveries.get deliveryId = some delivery →
    ∃ changed, after.deliveries.get deliveryId = some changed ∧
      (changed.state = .pending → changed.attempts = 0 →
        delivery.state = .pending ∧ delivery.attempts = 0)

theorem PendingSince.refl (store : RelayStore) : PendingSince store store :=
  fun _ delivery hget => ⟨delivery, hget, fun hstate hattempts => ⟨hstate, hattempts⟩⟩

theorem PendingSince.trans {first second third : RelayStore} (hfirst : PendingSince first second)
    (hsecond : PendingSince second third) : PendingSince first third := by
  intro deliveryId delivery hget
  obtain ⟨middle, hmiddle, hback⟩ := hfirst deliveryId delivery hget
  obtain ⟨last, hlast, hback'⟩ := hsecond deliveryId middle hmiddle
  refine ⟨last, hlast, fun hstate hattempts => ?_⟩
  obtain ⟨hmiddleState, hmiddleAttempts⟩ := hback' hstate hattempts
  exact hback hmiddleState hmiddleAttempts

theorem step_pendingSince (store : RelayStore) (op : RelayOp) :
    PendingSince store (op.step host store) := by
  intro deliveryId delivery hget
  obtain ⟨changed, hchanged, hchange⟩ := (op.step_evolves host store).kept deliveryId delivery hget
  refine ⟨changed, hchanged, fun hstate hattempts => ?_⟩
  cases hchange with
  | same => exact ⟨hstate, hattempts⟩
  | @suppressed clearClaim hopen => cases clearClaim <;> cases hstate
  | adopted hpending => exact ⟨hpending, hattempts⟩
  | _ => cases hstate

theorem step_relay (state : TrialDatabase) (op : TrialOp) :
    (state.step host printable op).database.relay = state.database.relay ∨
      ∃ relayOp : RelayOp, (state.step host printable op).database.relay =
        relayOp.step host state.database.relay := by
  cases op with
  | wake op =>
    cases op with
    | relay op => exact Or.inr ⟨op, rfl⟩
    | initialization reservations =>
      refine Or.inl ?_
      simp only [step, Database.step]
      split <;> rfl
    | transition request => exact Or.inl rfl
  | enroll endpointId sessionRef containerRef trialId =>
    rw [step]
    rcases @relayCodexTrialEnroll_cases state endpointId trialId sessionRef containerRef with
      hafter | ⟨_, _, _, -, -, -, -, -, hafter⟩
    · rw [hafter]
      exact Or.inl rfl
    · rw [hafter]
      exact Or.inl rfl
  | bind endpointId trialId deliveryId now =>
    rw [step]
    rcases @relayCodexTrialBind_cases state endpointId trialId deliveryId now with
      hafter | ⟨_, -, -, -, -, hafter⟩
    · rw [hafter]
      exact Or.inl rfl
    · rw [hafter]
      exact Or.inl rfl
  | spend endpointId trialId deliveryId now =>
    rw [step]
    rcases @relayCodexTrialSpend_cases state endpointId trialId deliveryId now with
      ⟨hafter, -⟩ | ⟨_, -, -, -, -, hafter⟩
    · rw [hafter]
      exact Or.inl rfl
    · rw [hafter]
      exact Or.inl rfl

theorem reached_pendingSince (earlier later : List TrialOp) :
    PendingSince (trialReached host printable earlier).database.relay
      (trialReached host printable (earlier ++ later)).database.relay := by
  rw [trialReached, trialReached, run_append]
  refine run_related
    (fun before after : TrialDatabase => PendingSince before.database.relay after.database.relay)
    (fun _ => PendingSince.refl _) (fun _ _ _ => PendingSince.trans) ?_ _ later
  intro state op
  rcases step_relay host printable state op with hsame | ⟨relayOp, hrelay⟩
  · rw [hsame]
    exact PendingSince.refl _
  · rw [hrelay]
    exact step_pendingSince host _ relayOp

theorem spentEndpoint_eq_some (hspent : spentEndpoint state op = some endpointId) :
    (∃ row, state.trials.get endpointId = some row ∧ row.spent = false) ∧
      ∃ row, (state.step host printable op).trials.get endpointId = some row ∧ row.spent := by
  cases op with
  | spend spentId trialId deliveryId now =>
    rw [spentEndpoint] at hspent
    split at hspent
    · next hsucceeded =>
      cases hspent
      rcases @relayCodexTrialSpend_cases state endpointId trialId deliveryId now with
        ⟨-, hfailed⟩ | ⟨row, hget, hendpoint, -, hunspent, hafter⟩
      · exact absurd hsucceeded hfailed
      · refine ⟨⟨row, hget, hunspent⟩, { row with spent := true }, ?_, rfl⟩
        rw [step, hafter]
        exact (Table.get_set _ _ _).trans (if_pos hendpoint.symm)
    · cases hspent
  | _ => cases hspent

theorem spentEndpoints_nodup :
    (spentEndpoints host printable ops).Nodup := by
  refine (observations_nodup (fun (seen : List String) (state : TrialDatabase) =>
    ∀ endpointId ∈ seen, ∃ row, state.trials.get endpointId = some row ∧ row.spent) ?_ ?_ ?_ ops).1
  · exact fun _ hmem => nomatch hmem
  · intro seen state op endpointId hseen hspent hmem
    obtain ⟨row, hget, hrow⟩ := hseen endpointId hmem
    obtain ⟨⟨other, hother, hunspent⟩, -⟩ := spentEndpoint_eq_some host printable hspent
    rw [hget] at hother
    cases hother
    rw [hunspent] at hrow
    cases hrow
  · intro seen state op hseen endpointId hmem
    rcases List.mem_append.mp hmem with hold | hnew
    · obtain ⟨row, hget, hrow⟩ := hseen endpointId hold
      obtain ⟨next, hnext, hstep⟩ := @step_trialStep host printable _ op _ _ hget
      exact ⟨next, hnext, (hstep.kept.spent hrow).symm ▸ hrow⟩
    · rw [Option.mem_toList] at hnew
      exact (spentEndpoint_eq_some host printable hnew).2

/-- What a spent trial guarantees at the moment of the native write. -/
structure ActionGuarantee (ops : List TrialOp) (endpointId deliveryId : String) (row : CodexTrial)
    (delivery : RelayDelivery) (session : RelaySession) : Prop where
  trial : (trialReached host printable ops).trials.get endpointId = some row
  bound : row.deliveryId = some deliveryId
  spent : row.spent
  stored : (trialReached host printable ops).database.relay.deliveries.get deliveryId =
    some delivery
  pending : delivery.state = .pending
  addressed : delivery.recipientEndpointId = some endpointId
  unclaimed : ∀ earlier later, earlier ++ later = ops → ∀ old,
    (trialReached host printable earlier).database.relay.deliveries.get deliveryId = some old →
      old.state = .pending ∧ old.attempts = 0
  registered : (trialReached host printable ops).database.relay.sessions.get endpointId =
    some session
  scope : session.sessionRef = row.sessionRef ∧ session.containerRef = row.containerRef ∧
    (trialReached host printable ops).database.relay.scopeGeneration endpointId =
      row.scopeGeneration
  recorded : RecordedAtEnrolment host printable ops row

theorem actionGuarantee {endpointId trialId deliveryId : String} {now : ℤ}
    (hready : (trialReached host printable ops).relayCodexTrialActionReady endpointId trialId
      deliveryId now) :
    ∃ row delivery session,
      ActionGuarantee host printable ops endpointId deliveryId row delivery session := by
  simp only [TrialDatabase.relayCodexTrialActionReady, Option.any_eq_true, Bool.and_eq_true,
    beq_iff_eq] at hready
  obtain ⟨session, hsession, row, hrow, ⟨⟨⟨⟨-, -⟩, hbound⟩, hspent⟩, hcurrent⟩, hpending⟩ := hready
  have hsessionId : session.id = endpointId := Table.key_of_get hsession
  have hrowId : row.recipientEndpointId = endpointId := Table.key_of_get hrow
  simp only [codexTrialEndpointCurrent, Bool.and_eq_true, beq_iff_eq, hsessionId] at hcurrent
  obtain ⟨⟨⟨-, href⟩, hcontainer⟩, hgeneration⟩ := hcurrent
  simp only [codexTrialPending, Option.any_eq_true, Bool.and_eq_true, beq_iff_eq] at hpending
  obtain ⟨⟨delivery, message⟩, hfound, hchecks⟩ := hpending
  obtain ⟨⟨⟨⟨⟨⟨⟨⟨haddressed, -⟩, -⟩, -⟩, hstate⟩, hattempts⟩, -⟩, -⟩, -⟩ := hchecks
  have hstored := (RelayStore.deliveryWithMessage_eq_some.mp hfound).1
  refine ⟨row, delivery, session, ⟨hrow, hbound, hspent, hstored, hstate, hrowId ▸ haddressed, ?_,
    hsession, ⟨href.symm, hcontainer.symm, hgeneration.symm⟩,
    reached_recorded host printable ops hrow⟩⟩
  rintro earlier later rfl old hold
  obtain ⟨changed, hchanged, hback⟩ :=
    reached_pendingSince host printable earlier later deliveryId old hold
  rw [hstored] at hchanged
  cases hchanged
  exact hback hstate hattempts

/-- In every run, a trial that exists changes only by being bound once and then spent
once, and everything else of its row stays; no endpoint's trial is spent twice; and
when the action is ready, the bound delivery is pending, addressed to the endpoint
and was never claimed, and the session has the scope and the generation that it
had at the enrolment. -/
theorem codex_trial_fence (ops : List TrialOp) :
    (∀ endpointId row, (trialReached host printable ops).trials.get endpointId = some row →
      (∀ op, ∃ next, (trialReached host printable (ops ++ [op])).trials.get endpointId =
          some next ∧ TrialStep row next) ∧
        ∀ later, ∃ last, (trialReached host printable (ops ++ later)).trials.get endpointId =
          some last ∧ TrialKept row last) ∧
      (spentEndpoints host printable ops).Nodup ∧
      ∀ endpointId trialId deliveryId now,
        (trialReached host printable ops).relayCodexTrialActionReady endpointId trialId deliveryId
          now →
        ∃ row delivery session,
          ActionGuarantee host printable ops endpointId deliveryId row delivery session := by
  refine ⟨fun endpointId row hget => ⟨fun op => ?_, fun later => ?_⟩,
    spentEndpoints_nodup host printable ops,
    fun _ _ _ _ hready => actionGuarantee host printable ops hready⟩
  · rw [trialReached_snoc]
    exact step_trialStep host printable hget
  · rw [trialReached, run_append]
    exact run_trialKept host printable _ later hget

end Runs

end Pallium.CodexWake
