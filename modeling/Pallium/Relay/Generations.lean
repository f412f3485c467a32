import Pallium.Relay.Registry

/-!
# OpenCode wake generations

The wake row of an endpoint names its native input by a generation.  `WakeChange`
lists what one operation can do to the row.  The generation never decreases, and
all that an attempt remembers (its delivery, its claim, its admission and its
terminal record) is reset only together with a step to the next generation.
Hence every generation claims at most once, and what a context request shows
again is the claim of its own generation.
-/

namespace Pallium.Relay

open Pallium.Run Pallium.Transaction Pallium.Calendar

/-- `RelayOpenCodeWakeRequest.validate_wake_snapshot`, where `none` stands for
the context operation. -/
def validateWakeSnapshot (operation : Option OpenCodeOperation) (request : OpenCodeRequest) :
    Except RelayError Unit := do
  let snapshot :=
    [request.generation.isSome, request.deliveryId.isSome, request.nativeInputId.isSome]
  let needed := operation = some .admitted ∨ operation = some .terminal ∨ operation = none
  require (needed → snapshot.all id)
    (.value "this operation requires the complete native wake snapshot")
  require (¬ needed → ¬ snapshot.any id)
    (.value "this operation does not accept a native wake snapshot")
  require (request.terminalMessageId.isSome ↔ operation = some .terminal)
    (.value "terminal_message_id is required only for terminal settlement")

/-- The request of the operation passes the validation of the API. -/
def RelayOp.Validated : RelayOp → Prop
  | .openCodeWake operation request _ => validateWakeSnapshot (some operation) request = .ok ()
  | .openCodeContext request _ _ => validateWakeSnapshot none request = .ok ()
  | _ => True

instance : DecidablePred RelayOp.Validated := fun op => by
  cases op <;> unfold RelayOp.Validated <;> infer_instance

variable {request : OpenCodeRequest}

theorem snapshot_of_validated (hvalid : validateWakeSnapshot none request = .ok ()) :
    request.generation.isSome ∧ request.deliveryId.isSome ∧ request.nativeInputId.isSome := by
  simp only [validateWakeSnapshot, bind_eq_ok, require_eq_ok] at hvalid
  obtain ⟨-, hneeded, -⟩ := hvalid
  have hall := hneeded (by simp)
  simpa using hall

section Changes

/-- A wake taken over by a new enrolment. -/
def OpenCodeWake.takenOver (wake : OpenCodeWake) (request : OpenCodeRequest) (now : ℤ) :
    OpenCodeWake :=
  { (if wake.scopeGeneration ≠ request.scopeGeneration ∨
        wake.nativeLocation ≠ request.nativeLocation then wake.invalidate else wake) with
    scopeGeneration := request.scopeGeneration
    nativeLocation := request.nativeLocation
    ownerId := some request.ownerId
    ownerExpiresAt := now + seconds 15 }

def OpenCodeWake.closed (wake : OpenCodeWake) (now : ℤ) : OpenCodeWake :=
  { wake.invalidate with ownerId := none, ownerExpiresAt := now }

/-- A claim that a context request makes for a generation of the wake. -/
structure WakeClaim where
  generation : ℕ
  deliveryId : String
  attempts : ℕ
  deriving DecidableEq, Repr

/-- What an operation at clock reading `now` can do to a wake row, with the claim
it makes for it. -/
inductive WakeChange (store : RelayStore) (now : ℤ) (wake : OpenCodeWake) :
    Option WakeClaim → OpenCodeWake → Prop
  | same : WakeChange store now wake none wake
  | enrolled {request : OpenCodeRequest}
      (hfree : wake.ownerId = none ∨ wake.ownerId = some request.ownerId ∨
        wake.ownerExpiresAt ≤ now) :
      WakeChange store now wake none (wake.takenOver request now)
  | polled {session : RelaySession} {request : OpenCodeRequest}
      (hheld : wake.heldBy request now) :
      WakeChange store now wake none
        (assignOldest store session request now
          (settleTerminal store now { wake with ownerExpiresAt := now + seconds 15 }))
  | detached {request : OpenCodeRequest} (hheld : wake.heldBy request now) :
      WakeChange store now wake none { wake with ownerId := none, ownerExpiresAt := now }
  | admitted {request : OpenCodeRequest} (hheld : wake.heldBy request now) :
      WakeChange store now wake none { wake with admitted := true }
  | ended {request : OpenCodeRequest} {retry : ℤ} (hheld : wake.heldBy request now) :
      WakeChange store now wake none { wake with terminal := true, retryNotBefore := some retry }
  | claimed {request : OpenCodeRequest} {deliveryId : String} {attempts chars : ℕ}
      (hheld : wake.heldBy request now)
      (hdelivery : wake.deliveryId = some deliveryId) (hunclaimed : wake.claimAttempts = none) :
      WakeChange store now wake (some ⟨wake.generation, deliveryId, attempts⟩)
        { wake with claimAttempts := some attempts, payloadChars := some chars }
  | closed : WakeChange store now wake none (wake.closed now)

variable {store : RelayStore} {now : ℤ} {wake next : OpenCodeWake} {claim : Option WakeClaim}

/-- Both rows belong to one attempt: what the first has recorded is still there,
except that a settled wake may have given up its delivery. -/
structure SameAttempt (first second : OpenCodeWake) : Prop where
  generation : second.generation = first.generation
  deliveryId : second.deliveryId = first.deliveryId ∨
    second.deliveryId = none ∧ second.terminal = true
  claimAttempts : first.claimAttempts.isSome → second.claimAttempts = first.claimAttempts
  admitted : first.admitted = true → second.admitted = true
  terminal : first.terminal = true → second.terminal = true
  failures : second.failures ≤ first.failures

theorem SameAttempt.refl (wake : OpenCodeWake) : SameAttempt wake wake :=
  ⟨rfl, Or.inl rfl, fun _ => rfl, id, id, le_rfl⟩

/-- The second row starts the attempt after the one of the first. -/
structure NextAttempt (first second : OpenCodeWake) : Prop where
  generation : second.generation = first.generation + 1
  claimAttempts : second.claimAttempts = none
  admitted : second.admitted = false
  terminal : second.terminal = false

theorem SameAttempt.trans {first second third : OpenCodeWake} (hfirst : SameAttempt first second)
    (hsecond : SameAttempt second third) : SameAttempt first third where
  generation := hsecond.generation.trans hfirst.generation
  deliveryId := by
    rcases hsecond.deliveryId with hlater | hdropped
    · rcases hfirst.deliveryId with hkept | ⟨hdropped, hterminal⟩
      · exact Or.inl (hlater.trans hkept)
      · exact Or.inr ⟨hlater.trans hdropped, hsecond.terminal hterminal⟩
    · exact Or.inr hdropped
  claimAttempts hclaimed := by
    have hkept := hfirst.claimAttempts hclaimed
    rw [← hkept] at hclaimed
    exact (hsecond.claimAttempts hclaimed).trans hkept
  admitted hadmitted := hsecond.admitted (hfirst.admitted hadmitted)
  terminal hterminal := hsecond.terminal (hfirst.terminal hterminal)
  failures := hsecond.failures.trans hfirst.failures

/-- One step leaves the attempt or starts the next one. -/
inductive WakeStep (first second : OpenCodeWake) : Prop
  | same (hsame : SameAttempt first second)
  | next (hnext : NextAttempt first second)

theorem settleTerminal_cases (store : RelayStore) (now : ℤ) (wake : OpenCodeWake) :
    settleTerminal store now wake = wake ∨
      (wake.terminal = true ∧
        settleTerminal store now wake = { wake with deliveryId := none, failures := 0 }) ∨
      wake.deliveryId.isSome ∧
        settleTerminal store now wake =
          { wake with
            generation := wake.generation + 1
            admitted := false
            terminal := false
            claimAttempts := none
            payloadChars := none
            failures := wake.failures + 1
            retryNotBefore := none } := by
  unfold settleTerminal
  simp only
  split
  · next hsettled =>
      rw [Bool.and_eq_true] at hsettled
      split
      · exact Or.inr (Or.inl ⟨hsettled.2, rfl⟩)
      · split
        · exact Or.inr (Or.inr ⟨hsettled.1, rfl⟩)
        · exact Or.inl rfl
  · exact Or.inl rfl

section

variable (store : RelayStore) (session : RelaySession) (request : OpenCodeRequest) (now : ℤ)
  (wake : OpenCodeWake)

theorem assignOldest_cases :
    assignOldest store session request now wake = wake ∨
      wake.deliveryId = none ∧ NextAttempt wake (assignOldest store session request now wake) := by
  unfold assignOldest
  simp only
  split
  · next hnone =>
      split
      · exact Or.inl rfl
      · exact Or.inr ⟨Option.isNone_iff_eq_none.mp hnone, rfl, rfl, rfl, rfl⟩
  · exact Or.inl rfl

theorem endpointId_assignOldest :
    (assignOldest store session request now wake).endpointId = wake.endpointId := by
  unfold assignOldest
  simp only
  split
  · split <;> rfl
  · rfl

theorem polled_step :
    WakeStep wake (assignOldest store session request now (settleTerminal store now wake)) := by
  have hassigned := assignOldest_cases store session request now (settleTerminal store now wake)
  rcases settleTerminal_cases store now wake with hsame | ⟨hterminal, hdropped⟩ | ⟨hdelivery, hretried⟩
  · rw [hsame] at hassigned ⊢
    rcases hassigned with hkept | ⟨-, hnext⟩
    · rw [hkept]
      exact .same (SameAttempt.refl wake)
    · exact .next hnext
  · rw [hdropped] at hassigned ⊢
    rcases hassigned with hkept | ⟨-, hnext⟩
    · rw [hkept]
      exact .same ⟨rfl, Or.inr ⟨rfl, hterminal⟩, fun _ => rfl, id, id, Nat.zero_le _⟩
    · exact .next ⟨hnext.generation, hnext.claimAttempts, hnext.admitted, hnext.terminal⟩
  · rw [hretried] at hassigned ⊢
    rcases hassigned with hkept | ⟨hnone, -⟩
    · rw [hkept]
      exact .next ⟨rfl, rfl, rfl, rfl⟩
    · exact absurd hnone (Option.isSome_iff_ne_none.mp hdelivery)

end

theorem endpointId_settleTerminal (store : RelayStore) (now : ℤ) (wake : OpenCodeWake) :
    (settleTerminal store now wake).endpointId = wake.endpointId := by
  rcases settleTerminal_cases store now wake with hsame | ⟨-, hdropped⟩ | ⟨-, hretried⟩
  · rw [hsame]
  · rw [hdropped]
  · rw [hretried]

theorem WakeChange.step (hchange : WakeChange store now wake claim next) : WakeStep wake next := by
  cases hchange with
  | same => exact .same (SameAttempt.refl wake)
  | @enrolled request =>
    by_cases hmoved : wake.scopeGeneration ≠ request.scopeGeneration ∨
        wake.nativeLocation ≠ request.nativeLocation
    · refine .next ⟨?_, ?_, ?_, ?_⟩ <;> simp only [OpenCodeWake.takenOver, if_pos hmoved] <;> rfl
    · refine .same ⟨?_, Or.inl ?_, fun _ => ?_, ?_, ?_, ?_⟩ <;>
        simp only [OpenCodeWake.takenOver, if_neg hmoved, imp_self, le_refl]
  | @polled session request =>
    cases polled_step store session request now
        { wake with ownerExpiresAt := now + seconds 15 } with
    | same hsame => exact .same ⟨hsame.1, hsame.2, hsame.3, hsame.4, hsame.5, hsame.6⟩
    | next hnext => exact .next ⟨hnext.1, hnext.2, hnext.3, hnext.4⟩
  | detached => exact .same ⟨rfl, Or.inl rfl, fun _ => rfl, id, id, le_rfl⟩
  | admitted => exact .same ⟨rfl, Or.inl rfl, fun _ => rfl, fun _ => rfl, id, le_rfl⟩
  | ended => exact .same ⟨rfl, Or.inl rfl, fun _ => rfl, id, fun _ => rfl, le_rfl⟩
  | claimed _ _ hunclaimed =>
    refine .same ⟨rfl, Or.inl rfl, fun hclaimed => ?_, id, id, le_rfl⟩
    rw [hunclaimed] at hclaimed
    cases hclaimed
  | closed => exact .next ⟨rfl, rfl, rfl, rfl⟩

theorem WakeChange.endpointId (hchange : WakeChange store now wake claim next) :
    next.endpointId = wake.endpointId := by
  cases hchange with
  | @enrolled request =>
    simp only [OpenCodeWake.takenOver]
    split <;> rfl
  | polled => rw [endpointId_assignOldest, endpointId_settleTerminal]
  | _ => rfl

theorem WakeStep.generation_lt (hstep : WakeStep wake next)
    (hassigned : (next.deliveryId.isSome ∧ next.deliveryId ≠ wake.deliveryId) ∨
      wake.failures < next.failures) : wake.generation < next.generation := by
  cases hstep with
  | same hsame =>
    rcases hassigned with ⟨hsome, hother⟩ | hfailures
    · rcases hsame.deliveryId with hkept | ⟨hdropped, -⟩
      · exact absurd hkept hother
      · rw [hdropped] at hsome
        cases hsome
    · exact absurd hsame.failures (not_le.mpr hfailures)
  | next hnext =>
    rw [hnext.generation]
    exact Nat.lt_succ_self _

theorem WakeStep.generation_le (hstep : WakeStep wake next) :
    wake.generation ≤ next.generation := by
  cases hstep with
  | same hsame => exact hsame.generation.ge
  | next hnext =>
    rw [hnext.generation]
    exact Nat.le_succ _

end Changes

section Operations

variable {store after : RelayStore} {now : ℤ} {session : RelaySession} {held : Option OpenCodeWake}

/-- What the binding of a request to its endpoint has checked. -/
structure Bound (store : RelayStore) (request : OpenCodeRequest) (now : ℤ) (enrollment : Bool)
    (session : RelaySession) (held : Option OpenCodeWake) : Prop where
  session : store.sessions.get request.endpointId = some session
  wake : store.openCodeWakes.get request.endpointId = held
  owned : enrollment = true ∨ held.any (OpenCodeWake.heldBy · request now)
  snapshot : request.generation = none ∨ held.any (OpenCodeWake.matchesSnapshot · request)

theorem openCodeBinding_eq_ok {enrollment : Bool}
    (hbinding : openCodeBinding store request now enrollment = .ok (session, held)) :
    Bound store request now enrollment session held := by
  simp only [openCodeBinding, bind_eq_ok, orRaise_eq_ok, require_eq_ok, pure_eq_ok,
    Prod.mk.injEq] at hbinding
  obtain ⟨found, hget, -, -, -, -, -, howned, -, hsnapshot, rfl, rfl⟩ := hbinding
  have hid : found.id = request.endpointId := Table.key_of_get hget
  exact ⟨hget, by rw [hid], howned, hsnapshot.imp_left Option.isNone_iff_eq_none.mp⟩

/-- Rows change as listed, with the given claims, and new rows have not been used. -/
structure WakesChange (store : RelayStore) (now : ℤ) (claims : String → Option WakeClaim)
    (after : RelayStore) : Prop where
  kept : ∀ endpointId wake, store.openCodeWakes.get endpointId = some wake →
    ∃ next, after.openCodeWakes.get endpointId = some next ∧
      WakeChange store now wake (claims endpointId) next
  born : ∀ endpointId next, store.openCodeWakes.get endpointId = none →
    after.openCodeWakes.get endpointId = some next →
      next.generation = 0 ∧ next.deliveryId = none ∧ next.claimAttempts = none

/-- The claims of an operation that makes none. -/
def noClaims : String → Option WakeClaim := fun _ => none

theorem WakesChange.of_eq (hwakes : after.openCodeWakes = store.openCodeWakes) :
    WakesChange store now noClaims after where
  kept endpointId wake hget := ⟨wake, by rw [hwakes, hget], .same⟩
  born endpointId next hnone hsome := by
    rw [hwakes, hnone] at hsome
    cases hsome

/-- One row is changed in place. -/
theorem WakesChange.of_modify {endpointId : String} {change : OpenCodeWake → OpenCodeWake}
    (hid : ∀ wake, (change wake).endpointId = wake.endpointId)
    (hchange : ∀ wake, store.openCodeWakes.get endpointId = some wake →
      WakeChange store now wake none (change wake))
    (hwakes : after.openCodeWakes = store.openCodeWakes.modify endpointId change) :
    WakesChange store now noClaims after where
  kept found wake hget := by
    rw [hwakes, Table.get_modify _ _ hid]
    split
    · next hfound =>
        refine ⟨change wake, by rw [hget, Option.map_some], hchange wake ?_⟩
        rw [← hfound, hget]
    · exact ⟨wake, hget, .same⟩
  born found next hnone hsome := by
    rw [hwakes, Table.get_modify _ _ hid, hnone, Option.map_none, ite_self] at hsome
    cases hsome

theorem enrollWake_eq_ok {enrolled : OpenCodeWake}
    (henroll : enrollWake held session request now = .ok enrolled) :
    (held = none ∧ enrolled = OpenCodeWake.enrolled session request now) ∨
      ∃ wake, held = some wake ∧
        (wake.ownerId = none ∨ wake.ownerId = some request.ownerId ∨ wake.ownerExpiresAt ≤ now) ∧
        { enrolled with ownerExpiresAt := now + seconds 15 } = wake.takenOver request now := by
  unfold enrollWake at henroll
  cases held with
  | none =>
    simp only [bind_eq_ok, pure_eq_ok] at henroll
    obtain ⟨wake, rfl, rfl⟩ := henroll
    refine Or.inl ⟨rfl, ?_⟩
    rw [if_neg (by simp [OpenCodeWake.enrolled])]
    rfl
  | some wake =>
    simp only [bind_eq_ok, require_eq_ok, pure_eq_ok] at henroll
    obtain ⟨-, hfree, kept, rfl, rfl⟩ := henroll
    exact Or.inr ⟨wake, rfl, hfree, rfl⟩

theorem operateWake_eq_ok {operation : OpenCodeOperation} {next : OpenCodeWake}
    (howned : operation = .enroll ∨ held.any (OpenCodeWake.heldBy · request now))
    (hoperate : operateWake store operation request session held now = .ok next) :
    (held = none ∧ next.endpointId = session.id ∧ next.generation = 0 ∧ next.deliveryId = none ∧
        next.claimAttempts = none) ∨
      ∃ wake, held = some wake ∧ WakeChange store now wake none next := by
  unfold operateWake at hoperate
  cases operation with
  | enroll =>
    simp only [bind_eq_ok, pure_eq_ok] at hoperate
    obtain ⟨enrolled, henroll, rfl⟩ := hoperate
    rcases enrollWake_eq_ok henroll with ⟨hnone, rfl⟩ | ⟨wake, hwake, hfree, htaken⟩
    · exact Or.inl ⟨hnone, rfl, rfl, rfl, rfl⟩
    · rw [htaken]
      exact Or.inr ⟨wake, hwake, .enrolled hfree⟩
  | poll =>
    simp only [bind_eq_ok, orRaise_eq_ok, pure_eq_ok] at hoperate
    obtain ⟨wake, rfl, rfl⟩ := hoperate
    exact Or.inr ⟨wake, rfl, .polled (howned.resolve_left (by simp))⟩
  | admitted =>
    simp only [bind_eq_ok, orRaise_eq_ok, pure_eq_ok] at hoperate
    obtain ⟨wake, rfl, rfl⟩ := hoperate
    exact Or.inr ⟨wake, rfl, .admitted (howned.resolve_left (by simp))⟩
  | terminal =>
    simp only [bind_eq_ok, orRaise_eq_ok, require_eq_ok] at hoperate
    obtain ⟨wake, rfl, -, -, hoperate⟩ := hoperate
    refine Or.inr ⟨wake, rfl, ?_⟩
    split at hoperate
    · simp only [pure_eq_ok] at hoperate
      exact hoperate ▸ .same
    · simp only [pure_eq_ok] at hoperate
      exact hoperate ▸ .ended (howned.resolve_left (by simp))
  | detach =>
    simp only [bind_eq_ok, orRaise_eq_ok, pure_eq_ok] at hoperate
    obtain ⟨wake, rfl, rfl⟩ := hoperate
    exact Or.inr ⟨wake, rfl, .detached (howned.resolve_left (by simp))⟩

theorem relayOpenCodeWake_wakes (operation : OpenCodeOperation) (request : OpenCodeRequest) :
    WakesChange store now noClaims (relayOpenCodeWake operation request now store).1 := by
  refine @transaction_related _ _ _ _ _ (fun before after => WakesChange before now noClaims after)
    (.of_eq rfl) fun after response hbody => ?_
  simp only [relayOpenCodeWakeBody, bind_eq_ok, pure_eq_ok, Prod.mk.injEq] at hbody
  obtain ⟨⟨session, held⟩, hbinding, next, hoperate, rfl, -⟩ := hbody
  have hbound := openCodeBinding_eq_ok hbinding
  have hid : session.id = request.endpointId := Table.key_of_get hbound.session
  have hcases := operateWake_eq_ok (hbound.owned.imp_left of_decide_eq_true) hoperate
  have hnextId : next.endpointId = request.endpointId := by
    rcases hcases with ⟨-, hnext, -⟩ | ⟨wake, hwake, hchange⟩
    · exact hnext.trans hid
    · exact hchange.endpointId.trans (Table.key_of_get (hbound.wake.trans hwake))
  have hwakes : ∀ changed : RelayStore,
      changed.openCodeWakes = store.openCodeWakes.put next → WakesChange store now noClaims changed := by
    intro changed hchanged
    have hget : ∀ endpointId, changed.openCodeWakes.get endpointId =
        if endpointId = request.endpointId then some next
        else store.openCodeWakes.get endpointId := by
      intro endpointId
      rw [hchanged, Table.get_put, key_openCodeWake, hnextId]
    refine ⟨fun endpointId wake hwake => ?_, fun endpointId born hnone hborn => ?_⟩
    · rw [hget]
      split
      · next hendpoint =>
          rw [hendpoint, hbound.wake] at hwake
          rcases hcases with ⟨hnone, -⟩ | ⟨other, hother, hchange⟩
          · rw [hnone] at hwake
            cases hwake
          · obtain rfl := Option.eq_some_unique hother hwake
            exact ⟨next, rfl, hchange⟩
      · exact ⟨wake, hwake, .same⟩
    · rw [hget] at hborn
      split at hborn
      · next hendpoint =>
          cases hborn
          rw [hendpoint, hbound.wake] at hnone
          rcases hcases with ⟨-, -, hnew⟩ | ⟨other, hother, -⟩
          · exact hnew
          · rw [hnone] at hother
            cases hother
      · rw [hnone] at hborn
        cases hborn
  split
  · exact hwakes _ rfl
  · exact hwakes _ rfl

end Operations

section Turns

variable {host : Host} {now : ℤ} {request : TurnRequest} {store after : RelayStore}
  {deliveryId : String} {wake : OpenCodeWake}

theorem resolveScope_openCodeWakes {registered : Option RelaySession} {generation : ℕ}
    (hscope : resolveScope request store = .ok (after, registered, generation)) :
    after.openCodeWakes = store.openCodeWakes :=
  @resolveScope_cases _ _ (fun after => after.openCodeWakes = store.openCodeWakes) _ _ _ hscope rfl
    fun _ _ => rfl

theorem admitSession_openCodeWakes {registered : Option RelaySession} {generation : ℕ}
    {admission : Admission}
    (hadmitted : admitSession host request now registered generation store =
      .ok (after, admission)) : after.openCodeWakes = store.openCodeWakes :=
  @admitSession_cases _ _ _ _ (fun after => after.openCodeWakes = store.openCodeWakes) _ _ _ _
    hadmitted rfl (fun _ _ _ _ => rfl) fun _ _ _ => rfl

/-- The numbers of attempts after `count` more claims of one delivery. -/
def Attempted (before after : RelayStore) (deliveryId : String) (count : ℕ) : Prop :=
  ∀ otherId delivery, before.deliveries.get otherId = some delivery →
    ∃ changed, after.deliveries.get otherId = some changed ∧
      changed.attempts = delivery.attempts + if otherId = deliveryId then count else 0

theorem Attempted.of_sweeps (hsweeps : Sweeps now store after) (deliveryId : String) :
    Attempted store after deliveryId 0 := by
  intro otherId delivery hget
  rcases hsweeps.deliveries otherId delivery hget with hsame | ⟨-, hexpired⟩
  · exact ⟨delivery, hsame, by rw [ite_self, Nat.add_zero]⟩
  · exact ⟨delivery.markExpired, hexpired, by rw [ite_self, Nat.add_zero]; rfl⟩

theorem Attempted.trans {middle : RelayStore} {first second : ℕ}
    (hfirst : Attempted store middle deliveryId first)
    (hsecond : Attempted middle after deliveryId second) :
    Attempted store after deliveryId (first + second) := by
  intro otherId delivery hget
  obtain ⟨kept, hkept, hattempts⟩ := hfirst otherId delivery hget
  obtain ⟨changed, hchanged, hlater⟩ := hsecond otherId kept hkept
  refine ⟨changed, hchanged, ?_⟩
  rw [hlater, hattempts]
  split <;> omega

theorem noteClaims_cases {selected : List Selected} {attempts used drawn : ℕ}
    (hselected : ∀ chosen ∈ selected, chosen.delivery.attempts = attempts) :
    selected = [] ∨ ∃ chars, ∀ wake, noteClaims ⟨selected, used, drawn⟩ wake =
      { wake with claimAttempts := some (attempts + 1), payloadChars := some chars } := by
  induction selected with
  | nil => exact Or.inl rfl
  | cons chosen rest ih =>
    have hchosen := hselected chosen List.mem_cons_self
    have hnoted : ∀ wake, noteClaims ⟨chosen :: rest, used, drawn⟩ wake =
        noteClaims ⟨rest, used, drawn⟩
          { wake with
            claimAttempts := some (attempts + 1)
            payloadChars := some chosen.view.payload.payload.length } := by
      intro wake
      rw [← hchosen]
      rfl
    rcases ih fun other hother => hselected other (List.mem_cons_of_mem _ hother) with
      rfl | ⟨chars, hrest⟩
    · exact Or.inr ⟨_, fun wake => hnoted wake⟩
    · exact Or.inr ⟨chars, fun wake => by rw [hnoted, hrest]⟩

/-- What the claims for a wake on its exact delivery do. -/
inductive ClaimEffect (store after : RelayStore) (wake : OpenCodeWake) (deliveryId : String)
    (views : List DeliveryView) : Prop
  | unclaimed (hwakes : ∀ endpointId,
        after.openCodeWakes.get endpointId = store.openCodeWakes.get endpointId)
      (hattempts : Attempted store after deliveryId 0) (hviews : views = [])
  | claimed {delivery : RelayDelivery} {chars : ℕ}
      (hget : store.deliveries.get deliveryId = some delivery)
      (hwakes : ∀ endpointId, after.openCodeWakes.get endpointId =
        if endpointId = wake.endpointId then
          (store.openCodeWakes.get endpointId).map fun row =>
            { row with
              claimAttempts := some (delivery.attempts + 1), payloadChars := some chars }
        else store.openCodeWakes.get endpointId)
      (hattempts : Attempted store after deliveryId 1)

theorem mem_selectEligible {context : TurnContext}
    (hexact : context.request.exactDeliveryId = some deliveryId) {chosen : Selected}
    (hchosen : chosen ∈ (selectEligible context store).selected) :
    chosen.delivery.id = deliveryId ∧ store.deliveries.get deliveryId = some chosen.delivery := by
  rcases (selectDeliveries_selectedFrom context ⟨[], 0, store.drawn⟩ _).selected chosen hchosen with
    hbefore | ⟨hrow, -⟩
  · cases hbefore
  · obtain ⟨heligible, hfilter⟩ := List.mem_filter.mp hrow
    rw [hexact, Option.all_some, beq_iff_eq] at hfilter
    have hget := (mem_openDeliveries heligible).1
    rw [hfilter] at hget
    exact ⟨hfilter, hget⟩

theorem endpointId_noteClaims (selection : Selection) (wake : OpenCodeWake) :
    (noteClaims selection wake).endpointId = wake.endpointId := by
  unfold noteClaims
  induction selection.selected generalizing wake with
  | nil => rfl
  | cons chosen rest ih => exact ih _

theorem claimSelected_effect {context : TurnContext} (wake : OpenCodeWake)
    (hexact : context.request.exactDeliveryId = some deliveryId) :
    ClaimEffect store (claimSelected context (some wake) (selectEligible context store) store)
      wake deliveryId ((selectEligible context store).selected.map (claimedView context)) := by
  have hmem : ∀ chosen ∈ (selectEligible context store).selected,
      chosen.delivery.id = deliveryId ∧ store.deliveries.get deliveryId = some chosen.delivery :=
    fun chosen hchosen => mem_selectEligible hexact hchosen
  generalize selectEligible context store = selection at hmem ⊢
  have hwakes : ∀ endpointId,
      (claimSelected context (some wake) selection store).openCodeWakes.get endpointId =
        if endpointId = wake.endpointId then
          (store.openCodeWakes.get endpointId).map (noteClaims selection)
        else store.openCodeWakes.get endpointId :=
    fun endpointId => Table.get_modify _ _ (endpointId_noteClaims selection) endpointId
  have hget : ∀ otherId,
      (claimSelected context (some wake) selection store).deliveries.get otherId =
        (store.deliveries.get otherId).map (claimIfSelected context selection) := by
    intro otherId
    rw [(claimSelected_frame context (some wake) selection store).1]
    exact Table.get_updateAll _ (id_claimIfSelected _) _
  obtain ⟨selected, used, drawn⟩ := selection
  cases selected with
  | nil =>
    refine .unclaimed (fun endpointId => ?_) (fun otherId row hrow => ?_) rfl
    · have hnote : noteClaims ⟨[], used, drawn⟩ = id := rfl
      rw [hwakes, hnote, Option.map_id, id, ite_self]
    · refine ⟨row, ?_, by rw [ite_self, Nat.add_zero]⟩
      rw [hget, hrow, Option.map_some]
      rfl
  | cons chosen rest =>
    obtain ⟨hid, hstored⟩ := hmem chosen List.mem_cons_self
    have hattempts : ∀ other ∈ chosen :: rest,
        other.delivery.attempts = chosen.delivery.attempts := by
      intro other hother
      rw [Option.some.inj ((hmem other hother).2.symm.trans hstored)]
    obtain ⟨chars, hnote⟩ := (@noteClaims_cases (chosen :: rest) _ used drawn
      hattempts).resolve_left (List.cons_ne_nil _ _)
    refine @ClaimEffect.claimed _ _ _ _ _ _ chars hstored (fun endpointId => ?_)
      (fun otherId row hrow => ?_)
    · rw [hwakes, show noteClaims ⟨chosen :: rest, used, drawn⟩ = _ from funext hnote]
    · refine ⟨_, by rw [hget, hrow, Option.map_some], ?_⟩
      have hrowId : row.id = otherId := Table.key_of_get hrow
      unfold claimIfSelected
      by_cases hother : otherId = deliveryId
      · rw [List.find?_cons_of_pos (by rw [hid, hrowId, hother, beq_self_eq_true]), if_pos hother]
        rfl
      · rw [List.find?_eq_none.mpr, if_neg hother]
        · rfl
        · intro candidate hcandidate
          rw [(hmem candidate hcandidate).1, hrowId, beq_iff_eq]
          exact fun hsame => hother hsame.symm

/-- Claims after a part that left the wakes and all attempts alone. -/
theorem ClaimEffect.after_part {middle : RelayStore}
    {views : List DeliveryView} (hsame : middle.openCodeWakes = store.openCodeWakes)
    (hkept : Attempted store middle deliveryId 0)
    (habsent : ∀ otherId, store.deliveries.get otherId = none →
      middle.deliveries.get otherId = none)
    (heffect : ClaimEffect middle after wake deliveryId views) :
    ClaimEffect store after wake deliveryId views := by
  cases heffect with
  | unclaimed hwakes hattempts hviews =>
    exact .unclaimed (fun endpointId => by rw [hwakes, hsame]) (hkept.trans hattempts) hviews
  | @claimed delivery chars hget hwakes hattempts =>
    cases hstored : store.deliveries.get deliveryId with
    | none =>
      rw [habsent deliveryId hstored] at hget
      cases hget
    | some row =>
      obtain ⟨changed, hchanged, hsameAttempts⟩ := hkept deliveryId row hstored
      obtain rfl := Option.eq_some_unique hchanged hget
      rw [ite_self, Nat.add_zero] at hsameAttempts
      rw [hsameAttempts, hsame] at hwakes
      refine .claimed hstored hwakes ?_
      rw [← Nat.zero_add 1]
      exact hkept.trans hattempts

section

variable {clock : ClaimClock} {wake : OpenCodeWake} {deliveryId : String} {response : TurnResponse}
  (hexact : request.exactDeliveryId = some deliveryId)
include hexact

theorem claimEligible_effect {session : RelaySession} {view : SessionView}
    (hclaims : claimEligible host request clock now (some wake) session view store =
      .ok (after, response)) : ClaimEffect store after wake deliveryId response.deliveries := by
  have hsweeps : Sweeps now store (store.sweepExpired now) := sweeps_sweepExpired store
  have hkept := Attempted.of_sweeps hsweeps deliveryId
  rcases claimEligible_cases hclaims with ⟨rfl, rfl⟩ | ⟨rfl, rfl⟩
  · exact .unclaimed (fun endpointId => rfl) hkept rfl
  · have hsame : (store.sweepExpired now).openCodeWakes = store.openCodeWakes := rfl
    exact (@claimSelected_effect (store.sweepExpired now) deliveryId
      (turnContext host request now (some wake) session view (store.sweepExpired now)) wake
      hexact).after_part hsame hkept hsweeps.absent

theorem turnInScope_effect
    (hturn : turnInScope host request clock now (some wake) store = .ok (after, response)) :
    ClaimEffect store after wake deliveryId response.deliveries := by
  obtain ⟨resolved, registered, generation, admitted, admission, hscope, hadmitted, hrest⟩ :=
    turnInScope_steps hturn
  have hquiet := (resolveScope_quiet hscope).trans (admitSession_quiet hadmitted)
  have hwakes : admitted.openCodeWakes = store.openCodeWakes :=
    (admitSession_openCodeWakes hadmitted).trans (resolveScope_openCodeWakes hscope)
  have hkept : Attempted store admitted deliveryId 0 := by
    intro otherId delivery hget
    exact ⟨delivery, by rw [hquiet.deliveries, hget], by rw [ite_self, Nat.add_zero]⟩
  rcases hrest with ⟨view, -, rfl, rfl⟩ | ⟨session, view, -, hclaims⟩
  · exact .unclaimed (fun endpointId => by rw [hwakes]) hkept rfl
  · refine ClaimEffect.after_part hwakes hkept (fun otherId hnone => ?_)
      (claimEligible_effect hexact hclaims)
    rw [hquiet.deliveries, hnone]

end

theorem turnInScope_openCodeWakes {clock : ClaimClock} {response : TurnResponse}
    (hturn : turnInScope host request clock now none store = .ok (after, response)) :
    after.openCodeWakes = store.openCodeWakes := by
  refine @turnInScope_related _ _ _ _ _ _ _ _
    (fun before after => after.openCodeWakes = before.openCodeWakes)
    (fun hfirst hsecond => hsecond.trans hfirst) resolveScope_openCodeWakes
    admitSession_openCodeWakes (fun hclaims => ?_) hturn
  rcases claimEligible_cases hclaims with ⟨rfl, -⟩ | ⟨rfl, -⟩
  · rfl
  · rfl

/-- A context request shows again at most the claim that the wake remembers. -/
theorem openCodeContext_eq_ok {native : OpenCodeRequest} {replay : Option TurnResponse}
    (hcontext : openCodeContext host request native now store = .ok (after, wake, replay)) :
    ∃ session deliveryId, Bound store native now false session (some wake) ∧
      request.exactDeliveryId = some deliveryId ∧ (store.deliveries.get deliveryId).isSome ∧
      after.openCodeWakes = store.openCodeWakes ∧ Sweeps now store after ∧
      (replay = none → wake.claimAttempts = none) ∧
      ∀ response, replay = some response → ∀ view ∈ response.deliveries,
        view.deliveryId = deliveryId ∧ wake.claimAttempts = some view.attempts := by
  have hsweeps := openCodeContext_sweeps hcontext
  unfold openCodeContext at hcontext
  simp only [bind_eq_ok, orRaise_eq_ok, require_eq_ok] at hcontext
  obtain ⟨-, -, deliveryId, hexact, ⟨session, held⟩, hbinding, found, rfl, ⟨delivery, message⟩, hrow,
    hcontext⟩ := hcontext
  have hget := (RelayStore.deliveryWithMessage_eq_some.mp (Option.filter_eq_some_iff.mp hrow).1).1
  have hid : delivery.id = deliveryId := Table.key_of_get hget
  have hstored : (store.deliveries.get deliveryId).isSome := by rw [hget]; rfl
  have hkept : (expireIfDue store now delivery).1.openCodeWakes = store.openCodeWakes ∧
      (expireIfDue store now delivery).2.id = deliveryId := by
    unfold expireIfDue
    split
    · exact ⟨rfl, hid⟩
    · exact ⟨rfl, hid⟩
  split at hcontext
  · simp only [pure_eq_ok, Prod.mk.injEq] at hcontext
    obtain ⟨rfl, rfl, rfl⟩ := hcontext
    refine ⟨session, deliveryId, openCodeBinding_eq_ok hbinding, hexact, hstored, hkept.1, hsweeps,
      by simp, fun response hresponse view hview => ?_⟩
    cases hresponse
    simp only at hview
    split at hview
    · next hshown =>
        obtain rfl := List.mem_singleton.mp hview
        simp only [Bool.and_eq_true, reusable, beq_iff_eq] at hshown
        exact ⟨hkept.2, hshown.1.1.1.1⟩
    · cases hview
  · next hfresh =>
      simp only [pure_eq_ok, Prod.mk.injEq] at hcontext
      obtain ⟨rfl, rfl, rfl⟩ := hcontext
      refine ⟨session, deliveryId, openCodeBinding_eq_ok hbinding, hexact, hstored, hkept.1,
        hsweeps, fun _ => ?_, by simp⟩
      simp only [not_or] at hfresh
      simpa using hfresh.2.1

/-- What a context request does that is not refused: it shows a claim again, or
it goes on to claim. -/
inductive ContextEffect (request : OpenCodeRequest) (now : ℤ) (store after : RelayStore)
    (views : List DeliveryView) : Prop
  | replayed {session : RelaySession} {wake : OpenCodeWake} {deliveryId : String}
      (hbound : Bound store request now false session (some wake))
      (hrequest : request.deliveryId = some deliveryId)
      (hstored : (store.deliveries.get deliveryId).isSome)
      (hwakes : after.openCodeWakes = store.openCodeWakes)
      (hattempts : Attempted store after deliveryId 0)
      (hviews : ∀ view ∈ views,
        view.deliveryId = deliveryId ∧ wake.claimAttempts = some view.attempts)
  | went {session : RelaySession} {wake : OpenCodeWake} {deliveryId : String}
      (hbound : Bound store request now false session (some wake))
      (hrequest : request.deliveryId = some deliveryId)
      (hstored : (store.deliveries.get deliveryId).isSome) (hunclaimed : wake.claimAttempts = none)
      (heffect : ClaimEffect store after wake deliveryId views)

/-- A context request shows the claim of its wake again, or it goes on to claim. -/
theorem relayTurnBody_contextTurn {request : OpenCodeRequest} {maxChars : ℕ} {clock : ClaimClock}
    {response : TurnResponse} :
    relayTurnBody host (contextTurn request maxChars) clock now store = .ok (after, response) ↔
      ∃ middle wake replay, openCodeContext host (contextTurn request maxChars) request now store =
          .ok (middle, wake, replay) ∧
        ((replay = some response ∧ after = middle) ∨ replay = none ∧
          turnInScope host (contextTurn request maxChars) clock now (some wake) middle =
            .ok (after, response)) := by
  simp only [relayTurnBody, bind_eq_ok, require_eq_ok, pure_eq_ok]
  constructor
  · rintro ⟨-, -, -, -, -, -, -, -, outcome, hturn, -, -, rfl⟩
    change (openCodeContext host (contextTurn request maxChars) request now store >>= _) = _ at hturn
    simp only [bind_eq_ok] at hturn
    obtain ⟨⟨middle, wake, replay⟩, hcontext, hturn⟩ := hturn
    refine ⟨middle, wake, replay, hcontext, ?_⟩
    cases replay with
    | some answer =>
      simp only [pure_eq_ok, Prod.mk.injEq] at hturn
      exact Or.inl ⟨congrArg some hturn.2, hturn.1.symm⟩
    | none => exact Or.inr ⟨rfl, hturn⟩
  · rintro ⟨middle, wake, replay, hcontext, hturn⟩
    refine ⟨(), Or.inr ⟨rfl, rfl, rfl⟩, (), rfl, (), rfl, (), rfl, (after, response), ?_, (), rfl, rfl⟩
    change (openCodeContext host (contextTurn request maxChars) request now store >>= _) = _
    rw [hcontext]
    rcases hturn with ⟨rfl, rfl⟩ | ⟨rfl, hturn⟩
    · rfl
    · exact hturn

theorem context_cases (host : Host) (request : OpenCodeRequest) (maxChars : ℕ) (now : ℤ)
    (store : RelayStore) :
    (∃ error, (RelayOp.openCodeContext request maxChars now).execute host store =
        (store, .error error)) ∨
      ∃ response, ((RelayOp.openCodeContext request maxChars now).execute host store).2 =
          .ok (.turn response) ∧
        ContextEffect request now store ((RelayOp.openCodeContext request maxChars now).step host
          store) response.deliveries := by
  rcases transaction_cases
      (relayTurnBody host (contextTurn request maxChars) ⟨now, fun _ => now⟩ now) store with
    ⟨after, response, hbody, htransaction⟩ | ⟨error, -, htransaction⟩
  · have hexecute : (RelayOp.openCodeContext request maxChars now).execute host store =
        (after, .ok (.turn response)) := congrArg (wrap .turn) htransaction
    refine Or.inr ⟨response, congrArg Prod.snd hexecute, ?_⟩
    rw [RelayOp.step, hexecute]
    obtain ⟨middle, wake, replay, hcontext, hturn⟩ := relayTurnBody_contextTurn.mp hbody
    obtain ⟨session, deliveryId, hbound, hexact, hstored, hwakes, hsweeps, hnone, hreplay⟩ :=
      openCodeContext_eq_ok hcontext
    have hkept := Attempted.of_sweeps hsweeps deliveryId
    rcases hturn with ⟨rfl, rfl⟩ | ⟨rfl, hturn⟩
    · exact .replayed hbound hexact hstored hwakes hkept (hreplay _ rfl)
    · exact .went hbound hexact hstored (hnone rfl)
        (ClaimEffect.after_part hwakes hkept hsweeps.absent (turnInScope_effect hexact hturn))
  · exact Or.inl ⟨error, congrArg (wrap .turn) htransaction⟩

end Turns

section Steps

variable {store after : RelayStore} {now : ℤ}

variable (runtime : Runtime) (sessionRef containerRef : String) {host : Host}

theorem relayCloseSession_wakes :
    WakesChange store now noClaims
      (relayCloseSession runtime sessionRef containerRef now store).1 := by
  refine relayCloseSession_cases runtime sessionRef containerRef (.of_eq rfl) fun row hrow => ?_
  split
  · exact @WakesChange.of_modify _ _ _ row.id (fun wake => wake.closed now) (fun wake => rfl)
      (fun wake _ => .closed) rfl
  · exact .of_eq rfl

theorem relayTurn_openCodeWakes {request : TurnRequest} {clock : ClaimClock}
    (hordinary : request.openCodeWake = none) :
    (relayTurn host request clock now store).1.openCodeWakes = store.openCodeWakes :=
  @relayTurn_cases _ _ _ (fun after => after.openCodeWakes = store.openCodeWakes) _ _ rfl
    turnInScope_openCodeWakes (fun hnative => absurd (hordinary.symm.trans hnative) nofun)
    fun hnative => absurd (hordinary.symm.trans hnative) nofun

theorem Bound.deliveryId {enrollment : Bool} {session : RelaySession}
    {wake : OpenCodeWake} (hbound : Bound store request now enrollment session (some wake))
    (hvalid : validateWakeSnapshot none request = .ok ()) :
    some wake.generation = request.generation ∧ wake.deliveryId = request.deliveryId := by
  have hgeneration := (snapshot_of_validated hvalid).1
  rcases hbound.snapshot with hnone | hmatches
  · rw [hnone] at hgeneration
    cases hgeneration
  · simp only [Option.any_some, OpenCodeWake.matchesSnapshot, Bool.and_eq_true,
      beq_iff_eq] at hmatches
    exact hmatches.1

/-- The claim an operation makes for the wake of the endpoint. -/
def contextClaim (host : Host) (store : RelayStore) (op : RelayOp) (endpointId : String) :
    Option WakeClaim :=
  match op with
  | .openCodeContext request _ _ =>
    if endpointId = request.endpointId then
      (store.openCodeWakes.get endpointId).bind fun wake =>
        request.deliveryId.bind fun deliveryId =>
          (store.deliveries.get deliveryId).bind fun delivery =>
            ((op.step host store).deliveries.get deliveryId).bind fun changed =>
              if changed.attempts = delivery.attempts then none
              else some ⟨wake.generation, deliveryId, changed.attempts⟩
    else none
  | _ => none

/-- How the claim of a context request shows in the number of attempts. -/
theorem contextClaim_of_attempted {maxChars : ℕ}
    {wake : OpenCodeWake} {delivery : RelayDelivery} {deliveryId : String} {count : ℕ}
    (hwake : store.openCodeWakes.get request.endpointId = some wake)
    (hrequest : request.deliveryId = some deliveryId)
    (hget : store.deliveries.get deliveryId = some delivery)
    (hattempts : Attempted store ((RelayOp.openCodeContext request maxChars now).step host store)
      deliveryId count) (endpointId : String) :
    contextClaim host store (.openCodeContext request maxChars now) endpointId =
      if endpointId = request.endpointId ∧ count ≠ 0 then
        some ⟨wake.generation, deliveryId, delivery.attempts + count⟩
      else none := by
  obtain ⟨changed, hchanged, hcount⟩ := hattempts deliveryId delivery hget
  rw [if_pos rfl] at hcount
  unfold contextClaim
  simp only
  by_cases hendpoint : endpointId = request.endpointId
  · subst hendpoint
    rw [if_pos rfl, hwake, Option.bind_some, hrequest, Option.bind_some, hget, Option.bind_some,
      hchanged, Option.bind_some, hcount]
    by_cases hzero : count = 0
    · rw [if_pos (by rw [hzero, Nat.add_zero]), if_neg (by simp [hzero])]
    · rw [if_neg (by omega), if_pos ⟨rfl, hzero⟩]
  · rw [if_neg hendpoint, if_neg (by simp [hendpoint])]

theorem contextClaim_of_step_eq {op : RelayOp} (hsame : op.step host store = store) :
    contextClaim host store op = noClaims := by
  funext endpointId
  unfold contextClaim noClaims
  split
  · rw [hsame]
    split
    · cases store.openCodeWakes.get endpointId with
      | none => rfl
      | some wake =>
        rw [Option.bind_some]
        cases hrequest : OpenCodeRequest.deliveryId _ with
        | none => rfl
        | some deliveryId =>
          rw [Option.bind_some]
          cases hget : store.deliveries.get deliveryId with
          | none => rfl
          | some delivery =>
            rw [Option.bind_some, Option.bind_some, if_pos rfl]
    · rfl
  · rfl

/-- The changes of a context request are its claim. -/
theorem ContextEffect.wakes {maxChars : ℕ}
    {views : List DeliveryView} (hvalid : validateWakeSnapshot none request = .ok ())
    (hafter : (RelayOp.openCodeContext request maxChars now).step host store = after)
    (heffect : ContextEffect request now store after views) :
    WakesChange store now (contextClaim host store (.openCodeContext request maxChars now))
      after := by
  cases heffect with
  | @replayed session wake deliveryId hbound hrequest hstored hwakes hattempts =>
    obtain ⟨delivery, hget⟩ := Option.isSome_iff_exists.mp hstored
    have hnone : contextClaim host store (.openCodeContext request maxChars now) = noClaims := by
      funext endpointId
      rw [contextClaim_of_attempted hbound.wake hrequest hget (hafter ▸ hattempts),
        if_neg (by simp)]
      rfl
    rw [hnone]
    exact .of_eq hwakes
  | @went session wake deliveryId hbound hrequest hstored hunclaimed heffect =>
    have hdelivery := (hbound.deliveryId hvalid).2.trans hrequest
    have hid : wake.endpointId = request.endpointId := Table.key_of_get hbound.wake
    have hheld : wake.heldBy request now = true := hbound.owned.resolve_left (by simp)
    obtain ⟨delivery, hget⟩ := Option.isSome_iff_exists.mp hstored
    cases heffect with
    | unclaimed hwakes hattempts =>
      refine ⟨fun endpointId row hrow => ⟨row, by rw [hwakes, hrow], ?_⟩,
        fun endpointId born hnone hborn => ?_⟩
      · rw [contextClaim_of_attempted hbound.wake hrequest hget (hafter ▸ hattempts),
          if_neg (by simp)]
        exact .same
      · rw [hwakes, hnone] at hborn
        cases hborn
    | claimed hclaimed hwakes hattempts =>
      obtain rfl := Option.eq_some_unique hget hclaimed
      refine ⟨fun endpointId row hrow => ?_, fun endpointId born hnone hborn => ?_⟩
      · rw [hwakes, hrow,
          contextClaim_of_attempted hbound.wake hrequest hget (hafter ▸ hattempts), hid]
        split
        · next hendpoint =>
            rw [hendpoint, hbound.wake] at hrow
            cases hrow
            rw [if_pos ⟨hendpoint, Nat.one_ne_zero⟩]
            exact ⟨_, rfl, .claimed hheld hdelivery hunclaimed⟩
        · next hendpoint =>
            rw [if_neg fun hboth => hendpoint hboth.1]
            exact ⟨row, rfl, .same⟩
      · rw [hwakes, hnone, Option.map_none, ite_self] at hborn
        cases hborn

/-- The operations that never write a wake. -/
def RelayOp.KeepsWakes : RelayOp → Prop
  | openCodeWake _ _ _ | openCodeContext _ _ _ | closeSession _ _ _ _ => False
  | _ => True

theorem RelayOp.step_openCodeWakes {store : RelayStore} {op : RelayOp}
    (hkeeps : op.KeepsWakes) : (op.step host store).openCodeWakes = store.openCodeWakes := by
  cases op with
  | turn request clock now => exact relayTurn_openCodeWakes rfl
  | nameSession runtime sessionRef containerRef aliasName replaceExisting now =>
    exact @relayNameSession_cases _ _ (fun after => after.openCodeWakes = store.openCodeWakes)
      runtime sessionRef containerRef aliasName replaceExisting rfl (fun _ _ _ _ => rfl)
      fun _ _ => rfl
  | markActive runtime sessionRef containerRef now =>
    exact @relayMarkActive_cases _ _ (fun after => after.openCodeWakes = store.openCodeWakes)
      runtime sessionRef containerRef rfl fun _ _ _ => rfl
  | markUnreachable runtime sessionRef containerRef attemptStartedAt =>
    exact @relayMarkUnreachable_cases _ _ (fun after => after.openCodeWakes = store.openCodeWakes)
      runtime sessionRef containerRef rfl fun _ _ _ => rfl
  | repairApply manifest evidence now =>
    exact (relayEndpointRepairApply_registry manifest evidence).openCodeWakes
  | openCodeWake | openCodeContext | closeSession => exact hkeeps.elim
  | _ => exact (RelayOp.step_mailed (by trivial)).openCodeWakes

theorem RelayOp.step_wakes (host : Host) (store : RelayStore) (op : RelayOp)
    (hvalid : op.Validated) :
    WakesChange store op.now (contextClaim host store op) (op.step host store) := by
  cases op with
  | openCodeWake operation request now => exact relayOpenCodeWake_wakes operation request
  | openCodeContext request maxChars now =>
    rcases context_cases host request maxChars now store with
      ⟨error, herror⟩ | ⟨response, -, heffect⟩
    · have hsame : (RelayOp.openCodeContext request maxChars now).step host store = store :=
        congrArg Prod.fst herror
      rw [contextClaim_of_step_eq hsame, hsame]
      exact .of_eq rfl
    · exact heffect.wakes hvalid rfl
  | closeSession runtime sessionRef containerRef now =>
    exact relayCloseSession_wakes runtime sessionRef containerRef
  | _ => exact .of_eq (RelayOp.step_openCodeWakes (by trivial))

end Steps

end Pallium.Relay
