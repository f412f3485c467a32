import Pallium.Relay.Operations

/-!
# What the parts of an operation write

For each part of an operation, the stores that it can leave behind.  What holds of all
of them holds after the part, so later proofs need not look at the bodies again.
-/

namespace Pallium.Relay

open Pallium.Transaction

/-- A change of a session that leaves its scope and its alias and never closes it. -/
structure Refreshed (session changed : RelaySession) : Prop where
  id : changed.id = session.id
  runtime : changed.runtime = session.runtime
  sessionRef : changed.sessionRef = session.sessionRef
  containerRef : changed.containerRef = session.containerRef
  aliasName : changed.aliasName = session.aliasName
  state : changed.state = .closed → session.state = .closed

def RelaySession.close (session : RelaySession) (now : ℤ) : RelaySession :=
  { session with state := .closed, closedAt := some now, aliasName := none }

/-- The sessions once the alias is given to one of them. -/
def nameSession (endpointId newAlias : String) (session : RelaySession) : RelaySession :=
  if session.id = endpointId then { session with aliasName := some newAlias }
  else if session.aliasName = some newAlias then { session with aliasName := none }
  else session

theorem nameSession_scope (endpointId newAlias : String) (session : RelaySession) :
    (nameSession endpointId newAlias session).id = session.id ∧
      (nameSession endpointId newAlias session).containerRef = session.containerRef ∧
      (nameSession endpointId newAlias session).runtime = session.runtime ∧
      (nameSession endpointId newAlias session).sessionRef = session.sessionRef := by
  unfold nameSession
  split
  · exact ⟨rfl, rfl, rfl, rfl⟩
  · split <;> exact ⟨rfl, rfl, rfl, rfl⟩

theorem id_nameSession (endpointId newAlias : String) (session : RelaySession) :
    (nameSession endpointId newAlias session).id = session.id :=
  (nameSession_scope endpointId newAlias session).1

/-- The store without the old alias of a session that is to be named. -/
def RelayStore.unbindOther (store : RelayStore) (row : RelaySession) (newAlias : String) :
    RelayStore :=
  if row.aliasName = some newAlias then store else store.unbindAlias row.aliasName row.id

variable {host : Host} {now : ℤ} {store after : RelayStore} {motive : RelayStore → Prop}

section Sessions

theorem unbindAlias_writes (store : RelayStore) (aliasName : Option String) (endpointId : String) :
    store.unbindAlias aliasName endpointId =
      { store with aliases := (store.unbindAlias aliasName endpointId).aliases } := by
  unfold RelayStore.unbindAlias
  split
  · rfl
  · split <;> rfl

theorem unbindAlias_congr {first second : RelayStore} (haliases : first.aliases = second.aliases)
    (aliasName : Option String) (endpointId : String) :
    (first.unbindAlias aliasName endpointId).aliases =
      (second.unbindAlias aliasName endpointId).aliases := by
  unfold RelayStore.unbindAlias
  rw [haliases]
  split
  · exact haliases
  · split
    · rfl
    · exact haliases

theorem unbindOther_writes (store : RelayStore) (row : RelaySession) (newAlias : String) :
    store.unbindOther row newAlias =
      { store with aliases := (store.unbindOther row newAlias).aliases } := by
  unfold RelayStore.unbindOther
  split
  · rfl
  · exact unbindAlias_writes _ _ _

variable (runtime : Runtime) (sessionRef containerRef : String)

theorem relayCloseSession_cases (hsame : motive store)
    (hclosed : ∀ row, store.relaySession containerRef runtime sessionRef = some row →
      motive { store with
        sessions := store.sessions.modify row.id fun session => session.close now
        openCodeWakes :=
          if runtime = .openCode then
            store.openCodeWakes.modify row.id fun wake =>
              { wake.invalidate with ownerId := none, ownerExpiresAt := now }
          else store.openCodeWakes
        aliases := (store.unbindAlias row.aliasName row.id).aliases }) :
    motive (relayCloseSession runtime sessionRef containerRef now store).1 := by
  refine transaction_after hsame fun after view hbody => ?_
  simp only [relayCloseSessionBody, bind_eq_ok, orRaise_eq_ok, pure_eq_ok, Prod.mk.injEq] at hbody
  obtain ⟨row, hrow, rfl, -⟩ := hbody
  have hwritten := hclosed row hrow
  rw [unbindAlias_writes]
  split at hwritten
  · next hruntime =>
      simp only [if_pos hruntime]
      rw [@unbindAlias_congr _ store]
      · exact hwritten
      · rfl
  · next hruntime =>
      simp only [if_neg hruntime]
      rw [@unbindAlias_congr _ store]
      · exact hwritten
      · rfl

section

variable (hsame : motive store)
  (hmarked : ∀ endpointId change, (∀ session, Refreshed session (change session)) → motive
    (store.modifySession endpointId change))
include hsame hmarked

theorem relayMarkUnreachable_cases :
    motive (relayMarkUnreachable runtime sessionRef containerRef now store).1 := by
  refine transaction_after hsame fun after flag hbody => ?_
  simp only [bind_eq_ok, orRaise_eq_ok] at hbody
  obtain ⟨row, -, hbody⟩ := hbody
  split at hbody
  · simp only [pure_eq_ok, Prod.mk.injEq] at hbody
    exact hbody.1 ▸ hsame
  · simp only [pure_eq_ok, Prod.mk.injEq] at hbody
    exact hbody.1 ▸ hmarked _ _ fun session =>
      ⟨rfl, rfl, rfl, rfl, rfl, fun hclosed => by cases hclosed⟩

theorem relayMarkActive_cases :
    motive (relayMarkActive runtime sessionRef containerRef now store).1 := by
  refine transaction_after hsame fun after flag hbody => ?_
  simp only [bind_eq_ok, orRaise_eq_ok, pure_eq_ok, Prod.mk.injEq] at hbody
  obtain ⟨row, -, hafter, -⟩ := hbody
  exact hafter ▸ hmarked _ _ fun session =>
    ⟨rfl, rfl, rfl, rfl, rfl, fun hclosed => by cases hclosed⟩

end

theorem relayNameSession_cases (aliasName : Option String) (replaceExisting : Bool)
    (hsame : motive store)
    (hnamed : ∀ row newAlias, store.sessions.get row.id = some row → row.state ≠ .closed →
      motive { store with
        sessions := store.sessions.updateAll (nameSession row.id newAlias)
        aliases := (store.unbindOther row newAlias).aliases.put ⟨newAlias, some row.id⟩ })
    (hunnamed : ∀ row, store.sessions.get row.id = some row →
      motive { store with
        sessions := store.sessions.modify row.id fun session => { session with aliasName := none }
        aliases := (store.unbindAlias row.aliasName row.id).aliases }) :
    motive
      (relayNameSession runtime sessionRef containerRef aliasName replaceExisting now store).1 := by
  refine transaction_after hsame fun after view hbody => ?_
  simp only [relayNameSessionBody, bind_eq_ok, orRaise_eq_ok, require_eq_ok, pure_eq_ok,
    Prod.mk.injEq] at hbody
  obtain ⟨row, hrow, -, hopen, named, hbind, rfl, -⟩ := hbody
  have hget := (RelayStore.get_of_relaySession hrow).1
  unfold bindAlias at hbind
  split at hbind
  · next newAlias =>
      simp only [bind_eq_ok, require_eq_ok, pure_eq_ok] at hbind
      obtain ⟨-, -, rfl⟩ := hbind
      have hwritten := hnamed row newAlias hget hopen
      change motive { store.unbindOther row newAlias with
        sessions := (store.unbindOther row newAlias).sessions.updateAll
          (nameSession row.id newAlias)
        aliases := (store.unbindOther row newAlias).aliases.put ⟨newAlias, some row.id⟩ }
      rw [unbindOther_writes]
      exact hwritten
  · simp only [pure_eq_ok] at hbind
    subst hbind
    rw [unbindAlias_writes]
    exact hunnamed row hget

theorem relayOpenCodeWake_cases (operation : OpenCodeOperation) (request : OpenCodeRequest)
    (hsame : motive store)
    (hoperated : ∀ session held wake sessions,
      openCodeBinding store request now (operation = .enroll) = .ok (session, held) →
      operateWake store operation request session held now = .ok wake →
      (sessions = store.sessions ∨
        sessions = store.sessions.modify session.id fun row => { row with lastSeenAt := now }) →
      motive { store with
        sessions := sessions, openCodeWakes := store.openCodeWakes.put wake }) :
    motive (relayOpenCodeWake operation request now store).1 := by
  refine transaction_after hsame fun after response hbody => ?_
  simp only [relayOpenCodeWakeBody, bind_eq_ok, pure_eq_ok, Prod.mk.injEq] at hbody
  obtain ⟨⟨session, held⟩, hbinding, wake, hoperate, rfl, -⟩ := hbody
  split
  · exact hoperated session held wake _ hbinding hoperate (Or.inr rfl)
  · exact hoperated session held wake _ hbinding hoperate (Or.inl rfl)

end Sessions

/-- What an operation on one session can leave behind. -/
inductive SessionWritten (store : RelayStore) : RelayStore → Prop
  | woken (wakes : Table OpenCodeWake) : SessionWritten store { store with openCodeWakes := wakes }
  | refreshed (endpointId : String) (change : RelaySession → RelaySession)
      (wakes : Table OpenCodeWake) (hchange : ∀ session, Refreshed session (change session)) :
      SessionWritten store { store.modifySession endpointId change with openCodeWakes := wakes }
  | closed (row : RelaySession) (now : ℤ) (wakes : Table OpenCodeWake)
      (hget : store.sessions.get row.id = some row) :
      SessionWritten store { store with
        sessions := store.sessions.modify row.id fun session => session.close now
        openCodeWakes := wakes
        aliases := (store.unbindAlias row.aliasName row.id).aliases }
  | named (row : RelaySession) (newAlias : String) (hget : store.sessions.get row.id = some row)
      (hopen : row.state ≠ .closed) :
      SessionWritten store { store with
        sessions := store.sessions.updateAll (nameSession row.id newAlias)
        aliases := (store.unbindOther row newAlias).aliases.put ⟨newAlias, some row.id⟩ }
  | unnamed (row : RelaySession) (hget : store.sessions.get row.id = some row) :
      SessionWritten store { store with
        sessions := store.sessions.modify row.id fun session => { session with aliasName := none }
        aliases := (store.unbindAlias row.aliasName row.id).aliases }

/-- The operations on one session. -/
def RelayOp.OnSession : RelayOp → Prop
  | openCodeWake _ _ _ | closeSession _ _ _ _ | nameSession _ _ _ _ _ _ | markActive _ _ _ _
  | markUnreachable _ _ _ _ => True
  | _ => False

theorem RelayOp.step_written {op : RelayOp} (hsession : op.OnSession) :
    SessionWritten store (op.step host store) := by
  have hsame : SessionWritten store store := .woken store.openCodeWakes
  have hmarked : ∀ endpointId change, (∀ session, Refreshed session (change session)) →
      SessionWritten store (store.modifySession endpointId change) := fun endpointId change =>
    .refreshed endpointId change store.openCodeWakes
  cases op with
  | openCodeWake operation request now =>
    refine relayOpenCodeWake_cases operation request hsame fun session _ _ _ _ _ hsessions => ?_
    rcases hsessions with rfl | rfl
    · exact .woken _
    · exact .refreshed _ (fun row => { row with lastSeenAt := now }) _ fun _ =>
        ⟨rfl, rfl, rfl, rfl, rfl, id⟩
  | closeSession runtime sessionRef containerRef now =>
    exact relayCloseSession_cases runtime sessionRef containerRef hsame fun row hrow =>
      .closed row now _ (RelayStore.get_of_relaySession hrow).1
  | nameSession runtime sessionRef containerRef aliasName replaceExisting now =>
    exact relayNameSession_cases runtime sessionRef containerRef aliasName replaceExisting hsame
      .named .unnamed
  | markActive runtime sessionRef containerRef now =>
    exact relayMarkActive_cases runtime sessionRef containerRef hsame hmarked
  | markUnreachable runtime sessionRef containerRef attemptStartedAt =>
    exact relayMarkUnreachable_cases runtime sessionRef containerRef hsame hmarked
  | _ => exact hsession.elim

section Turns

variable {request : TurnRequest} {registered : Option RelaySession} {generation : ℕ}
  {admission : Admission} {clock : ClaimClock} {wake : Option OpenCodeWake}
  {session : RelaySession} {view : SessionView} {response : TurnResponse}

theorem resolveScope_cases
    (hscope : resolveScope request store = .ok (after, registered, generation))
    (hsame : motive store)
    (hmoved : ∀ endpointId generations, motive { store with
      sessions := store.sessions.modify endpointId fun session =>
        { session with containerRef := request.containerRef }
      generations := generations }) : motive after := by
  unfold resolveScope at hscope
  split at hscope
  · simp only [pure_eq_ok, Prod.mk.injEq] at hscope
    exact hscope.1 ▸ hsame
  · simp only [bind_eq_ok, orRaise_eq_ok] at hscope
    obtain ⟨endpointId, -, previousGeneration, -, hscope⟩ := hscope
    split at hscope
    · simp only [bind_eq_ok, require_eq_ok, pure_eq_ok, Prod.mk.injEq] at hscope
      obtain ⟨-, -, rfl, -⟩ := hscope
      exact hsame
    · split at hscope
      · simp only [bind_eq_ok, require_eq_ok, pure_eq_ok, Prod.mk.injEq] at hscope
        obtain ⟨-, -, -, -, rfl, -⟩ := hscope
        exact hsame
      · simp only [bind_eq_ok, orRaise_eq_ok, require_eq_ok, pure_eq_ok, Prod.mk.injEq] at hscope
        obtain ⟨moving, -, -, -, -, -, rfl, -⟩ := hscope
        exact hmoved _ _

def TurnRequest.newSession (request : TurnRequest) (host : Host) (now : ℤ) (draw : ℕ) :
    RelaySession where
  id := "relay-session-" ++ host.uuid4Hex draw
  runtime := request.runtime
  sessionRef := request.sessionRef
  containerRef := request.containerRef
  title := request.title
  aliasName := none
  state := .active
  firstSeenAt := now
  lastSeenAt := now
  closedAt := none

theorem admitSession_cases (hadmitted : admitSession host request now registered generation store =
      .ok (after, admission)) (hsame : motive store)
    (hregistered : ∀ sessions, registered = none → request.registerSession = true →
      store.sessions.insertNew (request.newSession host now store.drawn) = some sessions →
        motive { store with sessions := sessions, drawn := store.drawn + 1 })
    (hrefreshed : ∀ endpointId change, (∀ session, Refreshed session (change session)) →
      motive (store.modifySession endpointId change)) : motive after := by
  unfold admitSession at hadmitted
  split at hadmitted
  · split at hadmitted
    · next hregister =>
        simp only [bind_eq_ok, orRaise_eq_ok, pure_eq_ok, Prod.mk.injEq] at hadmitted
        obtain ⟨sessions, hsessions, rfl, -⟩ := hadmitted
        exact hregistered sessions rfl hregister hsessions
    · simp only [pure_eq_ok, Prod.mk.injEq] at hadmitted
      exact hadmitted.1 ▸ hsame
  · split at hadmitted
    · simp only [pure_eq_ok, Prod.mk.injEq] at hadmitted
      exact hadmitted.1 ▸ hrefreshed _ _ fun session =>
        ⟨rfl, rfl, rfl, rfl, rfl, fun hclosed => by cases hclosed⟩
    · split at hadmitted
      · simp only [pure_eq_ok, Prod.mk.injEq] at hadmitted
        exact hadmitted.1 ▸ hsame
      · simp only [pure_eq_ok, Prod.mk.injEq] at hadmitted
        exact hadmitted.1 ▸ hsame

section

variable (hclaims : claimEligible host request clock now wake session view store =
  .ok (after, response))
include hclaims

theorem claimEligible_cases :
    let swept := store.sweepExpired now
    let context := turnContext host request now wake session view swept
    after = swept ∧ response = context.response [] ∨
      after = claimSelected context wake (selectEligible context swept) swept ∧
        response = context.response
          ((selectEligible context swept).selected.map (claimedView context)) := by
  unfold claimEligible at hclaims
  simp only at hclaims
  split at hclaims
  · simp only [bind_eq_ok, pure_eq_ok, Prod.mk.injEq] at hclaims
    obtain ⟨-, -, rfl, rfl⟩ := hclaims
    exact Or.inl ⟨rfl, rfl⟩
  · simp only [bind_eq_ok, pure_eq_ok, Prod.mk.injEq] at hclaims
    obtain ⟨-, -, rfl, rfl⟩ := hclaims
    exact Or.inr ⟨rfl, rfl⟩

theorem claimEligible_writes :
    after = { store with
      deliveries := after.deliveries
      openCodeWakes := after.openCodeWakes
      drawn := after.drawn } := by
  rcases claimEligible_cases hclaims with ⟨rfl, -⟩ | ⟨rfl, -⟩
  · rfl
  · cases wake <;> rfl

end

/-- A turn resolves its scope, admits its session and goes on to the deliveries. -/
theorem turnInScope_steps
    (hturn : turnInScope host request clock now wake store = .ok (after, response)) :
    ∃ resolved registered generation admitted admission,
      resolveScope request store = .ok (resolved, registered, generation) ∧
        admitSession host request now registered generation resolved =
          .ok (admitted, admission) ∧
        ((∃ view, admission = .refused view ∧ after = admitted ∧
            response = TurnResponse.nothing view) ∨
          ∃ session view, admission = .admitted session view ∧
            claimEligible host request clock now wake session view admitted =
              .ok (after, response)) := by
  unfold turnInScope at hturn
  simp only [bind_eq_ok] at hturn
  obtain ⟨⟨resolved, registered, generation⟩, hscope, ⟨admitted, admission⟩, hadmitted, hturn⟩ :=
    hturn
  refine ⟨resolved, registered, generation, admitted, admission, hscope, hadmitted, ?_⟩
  cases admission with
  | refused view =>
    simp only [pure_eq_ok, Prod.mk.injEq] at hturn
    exact Or.inl ⟨view, rfl, hturn.1.symm, hturn.2.symm⟩
  | admitted session view => exact Or.inr ⟨session, view, rfl, hturn⟩

/-- A relation that each of the three steps keeps. -/
theorem turnInScope_related {related : RelayStore → RelayStore → Prop}
    (htrans : ∀ {first second third}, related first second → related second third →
      related first third)
    (hscopes : ∀ {resolved registered generation},
      resolveScope request store = .ok (resolved, registered, generation) →
        related store resolved)
    (hadmits : ∀ {resolved registered generation admitted admission},
      admitSession host request now registered generation resolved = .ok (admitted, admission) →
        related resolved admitted)
    (hclaims : ∀ {admitted session view}, claimEligible host request clock now wake session view
      admitted = .ok (after, response) → related admitted after)
    (hturn : turnInScope host request clock now wake store = .ok (after, response)) :
    related store after := by
  obtain ⟨resolved, registered, generation, admitted, admission, hscope, hadmitted, hrest⟩ :=
    turnInScope_steps hturn
  have hbefore := htrans (hscopes hscope) (hadmits hadmitted)
  rcases hrest with ⟨-, -, rfl, -⟩ | ⟨session, view, -, hclaimed⟩
  · exact hbefore
  · exact htrans hbefore (hclaims hclaimed)

/-- Before its scope is resolved, a context request at most marks its delivery expired. -/
theorem openCodeContext_cases {native : OpenCodeRequest} {held : OpenCodeWake}
    {replay : Option TurnResponse}
    (hcontext : openCodeContext host request native now store = .ok (after, held, replay))
    (hsame : motive store)
    (hexpired : ∀ delivery, store.deliveries.get delivery.id = some delivery →
      store.due now delivery = true →
        motive (store.modifyDelivery delivery.id RelayDelivery.markExpired)) : motive after := by
  unfold openCodeContext at hcontext
  simp only [bind_eq_ok, orRaise_eq_ok, require_eq_ok] at hcontext
  obtain ⟨-, -, deliveryId, -, binding, -, found, -, ⟨delivery, message⟩, hrow, hcontext⟩ := hcontext
  have hget := (RelayStore.deliveryWithMessage_eq_some.mp (Option.filter_eq_some_iff.mp hrow).1).1
  obtain rfl := Table.key_of_get hget
  have hswept : motive (expireIfDue store now delivery).1 := by
    unfold expireIfDue
    split
    · next hdue => exact hexpired delivery hget hdue
    · exact hsame
  split at hcontext
  · simp only [pure_eq_ok, Prod.mk.injEq] at hcontext
    exact hcontext.1 ▸ hswept
  · simp only [pure_eq_ok, Prod.mk.injEq] at hcontext
    exact hcontext.1 ▸ hswept

/-- A turn is refused, goes through its scope, answers a context request from the wake, or
goes through the scope after the request was checked. -/
theorem relayTurn_cases (hsame : motive store)
    (hdirect : ∀ {after response},
      turnInScope host request clock now none store = .ok (after, response) → motive after)
    (hreplayed : ∀ {native after held response}, request.openCodeWake = some native →
      openCodeContext host request native now store = .ok (after, held, some response) →
        motive after)
    (hwent : ∀ {native middle held after response}, request.openCodeWake = some native →
      openCodeContext host request native now store = .ok (middle, held, none) →
        turnInScope host request clock now (some held) middle = .ok (after, response) →
          motive after) :
    motive (relayTurn host request clock now store).1 := by
  refine transaction_after hsame fun after response hbody => ?_
  simp only [relayTurnBody, bind_eq_ok, require_eq_ok, pure_eq_ok] at hbody
  obtain ⟨-, -, -, -, -, -, -, -, outcome, hturn, -, -, rfl⟩ := hbody
  unfold turnOrContext at hturn
  split at hturn
  · exact hdirect hturn
  · next native hnative =>
    simp only [bind_eq_ok] at hturn
    obtain ⟨⟨middle, held, replay⟩, hcontext, hturn⟩ := hturn
    cases replay with
    | some answer =>
      simp only [pure_eq_ok, Prod.mk.injEq] at hturn
      exact hturn.1 ▸ hreplayed hnative hcontext
    | none => exact hwent hnative hcontext hturn

end Turns

end Pallium.Relay
