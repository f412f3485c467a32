import Pallium.Relay.Lifecycle

/-!
# What an operation does to the session registry

Sessions, scope generations and aliases change only together and only in a few
ways.  `Moved` is a scope transition, and `RegistryChange` lists everything
else.  A turn is at most one transition followed by at most one other change,
and every other operation is a single change.
-/

namespace Pallium.Relay

open Pallium.Run Pallium.Transaction

/-- An operation that leaves sessions, generations and aliases alone. -/
structure SameRegistry (before after : RelayStore) : Prop where
  sessions : after.sessions = before.sessions
  generations : after.generations = before.generations
  aliases : after.aliases = before.aliases

/-- Besides the registry, the wakes stay as they are. -/
structure Undisturbed (before after : RelayStore) : Prop extends SameRegistry before after where
  openCodeWakes : after.openCodeWakes = before.openCodeWakes

/-- Besides the registry and the wakes, the repair ledger stays as it is. -/
structure Mailed (before after : RelayStore) : Prop extends Undisturbed before after where
  repairs : after.repairs = before.repairs

/-- The changes of the registry other than scope transitions. -/
inductive RegistryChange (before after : RelayStore) : Prop
  | same (hsame : SameRegistry before after)
  | refreshed {endpointId : String} {change : RelaySession → RelaySession}
      (hchange : ∀ session, Refreshed session (change session))
      (hsessions : after.sessions = before.sessions.modify endpointId change)
      (hgenerations : after.generations = before.generations)
      (haliases : after.aliases = before.aliases)
  | registered {session : RelaySession} (hstate : session.state = .active)
      (halias : session.aliasName = none)
      (hfree : before.relaySession session.containerRef session.runtime session.sessionRef = none)
      (hinsert : before.sessions.insertNew session = some after.sessions)
      (hgenerations : after.generations = before.generations)
      (haliases : after.aliases = before.aliases)
  | closed {row : RelaySession} {now : ℤ} (hget : before.sessions.get row.id = some row)
      (hsessions : after.sessions = before.sessions.modify row.id fun session => session.close now)
      (hgenerations : after.generations = before.generations)
      (haliases : after.aliases = (before.unbindAlias row.aliasName row.id).aliases)
  | named {row : RelaySession} {newAlias : String} (hget : before.sessions.get row.id = some row)
      (hopen : row.state ≠ .closed)
      (hsessions : after.sessions = before.sessions.updateAll (nameSession row.id newAlias))
      (hgenerations : after.generations = before.generations)
      (haliases : after.aliases =
        (before.unbindOther row newAlias).aliases.put ⟨newAlias, some row.id⟩)
  | unnamed {row : RelaySession} (hget : before.sessions.get row.id = some row)
      (hsessions : after.sessions = before.sessions.modify row.id fun session =>
        { session with aliasName := none })
      (hgenerations : after.generations = before.generations)
      (haliases : after.aliases = (before.unbindAlias row.aliasName row.id).aliases)

/-- The endpoint moved to a scope that no session of its runtime and session
reference had. -/
structure Moved (before after : RelayStore) (endpointId containerRef : String) : Prop where
  source : ∃ moving, before.sessions.get endpointId = some moving ∧ moving.state = .active ∧
    moving.containerRef ≠ containerRef ∧
    before.relaySession containerRef moving.runtime moving.sessionRef = none
  sessions : after.sessions = before.sessions.modify endpointId fun session =>
    { session with containerRef := containerRef }
  generations : after.generations =
    before.generations.put ⟨endpointId, before.scopeGeneration endpointId + 1⟩
  aliases : after.aliases = before.aliases

/-- What one operation does to the registry. -/
inductive RegistryStep (before after : RelayStore) : Prop
  | unmoved (hchange : RegistryChange before after)
  | moved {middle : RelayStore} {endpointId containerRef : String}
      (hmoved : Moved before middle endpointId containerRef)
      (hchange : RegistryChange middle after)

section Frames

variable {before middle after : RelayStore}

theorem SameRegistry.refl (store : RelayStore) : SameRegistry store store := ⟨rfl, rfl, rfl⟩

theorem SameRegistry.trans (hfirst : SameRegistry before middle)
    (hsecond : SameRegistry middle after) : SameRegistry before after :=
  ⟨hsecond.sessions.trans hfirst.sessions, hsecond.generations.trans hfirst.generations,
    hsecond.aliases.trans hfirst.aliases⟩

theorem Undisturbed.refl (store : RelayStore) : Undisturbed store store :=
  ⟨SameRegistry.refl store, rfl⟩

theorem Undisturbed.trans (hfirst : Undisturbed before middle)
    (hsecond : Undisturbed middle after) : Undisturbed before after :=
  ⟨hfirst.toSameRegistry.trans hsecond.toSameRegistry,
    hsecond.openCodeWakes.trans hfirst.openCodeWakes⟩

theorem Mailed.refl (store : RelayStore) : Mailed store store := ⟨Undisturbed.refl store, rfl⟩

theorem Mailed.trans (hfirst : Mailed before middle) (hsecond : Mailed middle after) :
    Mailed before after :=
  ⟨hfirst.toUndisturbed.trans hsecond.toUndisturbed, hsecond.repairs.trans hfirst.repairs⟩

theorem RegistryChange.then_same (hchange : RegistryChange before middle)
    (hsame : SameRegistry middle after) : RegistryChange before after := by
  obtain ⟨hsessions, hgenerations, haliases⟩ := hsame
  cases hchange with
  | same hsame => exact .same (hsame.trans ⟨hsessions, hgenerations, haliases⟩)
  | refreshed hchange hmodified hgens hals =>
    exact .refreshed hchange (hsessions.trans hmodified) (hgenerations.trans hgens)
      (haliases.trans hals)
  | registered hstate halias hfree hinsert hgens hals =>
    exact .registered hstate halias hfree (hsessions ▸ hinsert) (hgenerations.trans hgens)
      (haliases.trans hals)
  | closed hget hmodified hgens hals =>
    exact .closed hget (hsessions.trans hmodified) (hgenerations.trans hgens)
      (haliases.trans hals)
  | named hget hopen hmodified hgens hals =>
    exact .named hget hopen (hsessions.trans hmodified) (hgenerations.trans hgens)
      (haliases.trans hals)
  | unnamed hget hmodified hgens hals =>
    exact .unnamed hget (hsessions.trans hmodified) (hgenerations.trans hgens)
      (haliases.trans hals)

theorem SameRegistry.step (hsame : SameRegistry before after) : RegistryStep before after :=
  .unmoved (.same hsame)

end Frames

section Unbinding

variable {store first second : RelayStore}

theorem get_unbindAlias (store : RelayStore) (aliasName : Option String)
    (endpointId name : String) :
    (store.unbindAlias aliasName endpointId).aliases.get name =
      (store.aliases.get name).filter fun binding =>
        !(aliasName == some name && binding.endpointId == some endpointId) := by
  unfold RelayStore.unbindAlias
  split
  · next hnone =>
      cases hbinding : store.aliases.get name with
      | none => rfl
      | some binding =>
        have hother : aliasName ≠ some name := by
          rintro rfl
          rw [Option.bind_some, hbinding] at hnone
          cases hnone
        simp [Option.filter_some, hother]
  · next found hfound =>
      obtain ⟨bound, rfl, hbinding⟩ := Option.bind_eq_some_iff.mp hfound
      obtain rfl : found.aliasName = bound := Table.key_of_get hbinding
      split
      · next howner =>
          rw [Table.get_erase]
          split
          · next hname => simp [Option.filter_some, hname, hbinding, howner]
          · next hname =>
              have hother : found.aliasName ≠ name := fun heq => hname heq.symm
              cases store.aliases.get name with
              | none => rfl
              | some binding => simp [Option.filter_some, hother]
      · next howner =>
          by_cases hname : found.aliasName = name
          · rw [← hname, hbinding]
            simp [Option.filter_some, howner]
          · cases store.aliases.get name with
            | none => rfl
            | some binding => simp [Option.filter_some, hname]

theorem relaySession_congr (hsessions : first.sessions = second.sessions) :
    first.relaySession = second.relaySession := by
  unfold RelayStore.relaySession
  rw [hsessions]

theorem scopeGeneration_congr (hgenerations : first.generations = second.generations) :
    first.scopeGeneration = second.scopeGeneration := by
  unfold RelayStore.scopeGeneration
  rw [hgenerations]

theorem unbindOther_congr (haliases : first.aliases = second.aliases) (row : RelaySession)
    (newAlias : String) :
    (first.unbindOther row newAlias).aliases = (second.unbindOther row newAlias).aliases := by
  unfold RelayStore.unbindOther
  split
  · exact haliases
  · exact unbindAlias_congr haliases _ _

end Unbinding

section Composition

variable {before middle after : RelayStore}

theorem RegistryChange.after_same (hsame : SameRegistry before middle)
    (hchange : RegistryChange middle after) : RegistryChange before after := by
  obtain ⟨hsessions, hgenerations, haliases⟩ := hsame
  cases hchange with
  | same hsame => exact .same (SameRegistry.trans ⟨hsessions, hgenerations, haliases⟩ hsame)
  | refreshed hchange hmodified hgens hals =>
    rw [hsessions] at hmodified
    exact .refreshed hchange hmodified (hgens.trans hgenerations) (hals.trans haliases)
  | registered hstate halias hfree hinsert hgens hals =>
    rw [relaySession_congr hsessions] at hfree
    rw [hsessions] at hinsert
    exact .registered hstate halias hfree hinsert (hgens.trans hgenerations)
      (hals.trans haliases)
  | closed hget hmodified hgens hals =>
    rw [hsessions] at hget hmodified
    exact .closed hget hmodified (hgens.trans hgenerations)
      (hals.trans (unbindAlias_congr haliases _ _))
  | named hget hopen hmodified hgens hals =>
    rw [hsessions] at hget hmodified
    rw [unbindOther_congr haliases] at hals
    exact .named hget hopen hmodified (hgens.trans hgenerations) hals
  | unnamed hget hmodified hgens hals =>
    rw [hsessions] at hget hmodified
    exact .unnamed hget hmodified (hgens.trans hgenerations)
      (hals.trans (unbindAlias_congr haliases _ _))

theorem Moved.after_same {endpointId containerRef : String} (hsame : SameRegistry before middle)
    (hmoved : Moved middle after endpointId containerRef) :
    Moved before after endpointId containerRef := by
  obtain ⟨⟨moving, hget, hactive, hother, hfree⟩, hsessions, hgenerations, haliases⟩ := hmoved
  rw [hsame.sessions] at hget hsessions
  rw [relaySession_congr hsame.sessions] at hfree
  rw [hsame.generations, scopeGeneration_congr hsame.generations] at hgenerations
  exact ⟨⟨moving, hget, hactive, hother, hfree⟩, hsessions, hgenerations,
    haliases.trans hsame.aliases⟩

theorem RegistryStep.after_same (hsame : SameRegistry before middle)
    (hstep : RegistryStep middle after) : RegistryStep before after := by
  cases hstep with
  | unmoved hchange => exact .unmoved (hchange.after_same hsame)
  | moved hmoved hchange => exact .moved (hmoved.after_same hsame) hchange

end Composition

section Sessions

variable {host : Host} {now : ℤ} {store after : RelayStore}

theorem modifySession_registry {endpointId : String} {change : RelaySession → RelaySession}
    (hchange : ∀ session, Refreshed session (change session)) :
    RegistryChange store (store.modifySession endpointId change) :=
  .refreshed hchange rfl rfl rfl

theorem SessionWritten.registry (hwritten : SessionWritten store after) :
    RegistryChange store after := by
  cases hwritten with
  | woken => exact .same ⟨rfl, rfl, rfl⟩
  | refreshed _ _ _ hchange => exact .refreshed hchange rfl rfl rfl
  | closed _ _ _ hget => exact .closed hget rfl rfl rfl
  | named _ _ hget hopen => exact .named hget hopen rfl rfl rfl
  | unnamed _ hget => exact .unnamed hget rfl rfl rfl

end Sessions

section Turns

variable {host : Host} {now : ℤ} {request : TurnRequest} {store after : RelayStore}

variable {clock : ClaimClock} {wake : Option OpenCodeWake} {response : TurnResponse}

/-- The ways in which the scope of a turn is resolved. -/
inductive Resolved (request : TurnRequest) (store : RelayStore) :
    RelayStore → Option RelaySession → ℕ → Prop
  | direct (hprevious : request.previousContainerRef = none) :
      Resolved request store store
        (store.relaySession request.containerRef request.runtime request.sessionRef)
        (((store.relaySession request.containerRef request.runtime request.sessionRef).map
          fun session => store.scopeGeneration session.id).getD 0)
  | confirmed {session : RelaySession}
      (hprevious : request.previousContainerRef = some request.containerRef)
      (hendpoint : request.previousEndpointId = some session.id)
      (hregistered : store.relaySession request.containerRef request.runtime
        request.sessionRef = some session)
      (hopen : session.state ≠ .closed)
      (hgeneration : request.previousScopeGeneration = some (store.scopeGeneration session.id)) :
      Resolved request store store (some session) (store.scopeGeneration session.id)
  | replayed {session : RelaySession} {previousContainerRef : String} {previousGeneration : ℕ}
      (hprevious : request.previousContainerRef = some previousContainerRef)
      (hother : request.containerRef ≠ previousContainerRef)
      (hendpoint : request.previousEndpointId = some session.id)
      (hregistered : store.relaySession request.containerRef request.runtime
        request.sessionRef = some session)
      (hactive : session.state = .active)
      (hgeneration : request.previousScopeGeneration = some previousGeneration)
      (hnext : store.scopeGeneration session.id = previousGeneration + 1)
      (hsource : store.relaySession previousContainerRef request.runtime
        request.sessionRef = none) :
      Resolved request store store (some session) (previousGeneration + 1)
  | moved {resolved : RelayStore} {moving : RelaySession} {previousContainerRef : String}
      (hprevious : request.previousContainerRef = some previousContainerRef)
      (hother : request.containerRef ≠ previousContainerRef)
      (hendpoint : request.previousEndpointId = some moving.id)
      (hfree : store.relaySession request.containerRef request.runtime request.sessionRef = none)
      (hsource : store.relaySession previousContainerRef request.runtime
        request.sessionRef = some moving)
      (hactive : moving.state = .active)
      (hgeneration : request.previousScopeGeneration = some (store.scopeGeneration moving.id))
      (hmoved : Moved store resolved moving.id request.containerRef) :
      Resolved request store resolved (some { moving with containerRef := request.containerRef })
        (store.scopeGeneration moving.id + 1)

theorem resolveScope_eq_ok {registered : Option RelaySession} {generation : ℕ}
    (hscope : resolveScope request store = .ok (after, registered, generation)) :
    Resolved request store after registered generation := by
  unfold resolveScope at hscope
  simp only at hscope
  split at hscope
  · next hprevious =>
      simp only [pure_eq_ok, Prod.mk.injEq] at hscope
      obtain ⟨rfl, rfl, rfl⟩ := hscope
      exact .direct hprevious
  · next previousContainerRef hprevious =>
      simp only [bind_eq_ok, orRaise_eq_ok] at hscope
      obtain ⟨endpointId, hendpoint, previousGeneration, hgeneration, hscope⟩ := hscope
      split at hscope
      · next hsame =>
          simp only [bind_eq_ok, require_eq_ok, pure_eq_ok, Prod.mk.injEq] at hscope
          obtain ⟨-, hany, rfl, hregistered, rfl⟩ := hscope
          rw [Option.any_eq_true] at hany
          obtain ⟨session, hsession, hchecks⟩ := hany
          simp only [Bool.and_eq_true, bne_iff_ne, beq_iff_eq] at hchecks
          obtain ⟨⟨hopen, rfl⟩, rfl⟩ := hchecks
          rw [hsession] at hregistered
          subst hregistered
          exact .confirmed (hsame ▸ hprevious) hendpoint hsession hopen hgeneration
      · next hother =>
          split at hscope
          · next session hregistered =>
              simp only [bind_eq_ok, require_eq_ok, pure_eq_ok, Prod.mk.injEq] at hscope
              obtain ⟨-, ⟨hactive, rfl, hnext⟩, -, hsource, rfl, rfl, rfl⟩ := hscope
              exact .replayed hprevious hother hendpoint hregistered hactive hgeneration hnext
                (Option.isNone_iff_eq_none.mp hsource)
          · next hfree =>
              simp only [bind_eq_ok, orRaise_eq_ok, require_eq_ok, pure_eq_ok,
                Prod.mk.injEq] at hscope
              obtain ⟨moving, hfound, -, hactive, -, rfl, rfl, rfl, rfl⟩ := hscope
              obtain ⟨hsource, hid⟩ := Option.filter_eq_some_iff.mp hfound
              rw [beq_iff_eq] at hid
              subst hid
              obtain ⟨hget, hcontainer, hruntime, href⟩ := RelayStore.get_of_relaySession hsource
              refine .moved hprevious hother hendpoint hfree hsource hactive hgeneration
                ⟨⟨moving, hget, hactive, ?_, ?_⟩, rfl, rfl, rfl⟩
              · rw [hcontainer]
                exact fun heq => hother heq.symm
              · rw [hruntime, href]
                exact hfree

theorem admitSession_registry {registered : Option RelaySession} {generation : ℕ}
    {admission : Admission}
    (hnone : registered = none →
      store.relaySession request.containerRef request.runtime request.sessionRef = none)
    (hadmitted : admitSession host request now registered generation store =
      .ok (after, admission)) : RegistryChange store after :=
  admitSession_cases hadmitted (.same (SameRegistry.refl store))
    (fun _ hregistered _ hinsert => .registered rfl rfl (hnone hregistered) hinsert rfl rfl)
    fun _ _ => modifySession_registry

theorem claimEligible_registry {session : RelaySession} {view : SessionView}
    (hclaims : claimEligible host request clock now wake session view store =
      .ok (after, response)) : SameRegistry store after := by
  rw [claimEligible_writes hclaims]
  exact ⟨rfl, rfl, rfl⟩

theorem turnInScope_eq_ok
    (hturn : turnInScope host request clock now wake store = .ok (after, response)) :
    ∃ resolved registered generation, Resolved request store resolved registered generation ∧
      RegistryChange resolved after := by
  obtain ⟨resolved, registered, generation, admitted, admission, hscope, hadmitted, hrest⟩ :=
    turnInScope_steps hturn
  have hresolved := resolveScope_eq_ok hscope
  have hnone : registered = none →
      resolved.relaySession request.containerRef request.runtime request.sessionRef = none := by
    intro hregistered
    cases hresolved with
    | direct => exact hregistered
    | _ => cases hregistered
  have hchange := admitSession_registry hnone hadmitted
  refine ⟨resolved, registered, generation, hresolved, ?_⟩
  rcases hrest with ⟨-, -, rfl, -⟩ | ⟨session, view, -, hclaims⟩
  · exact hchange
  · exact hchange.then_same (claimEligible_registry hclaims)

theorem turnInScope_registry
    (hturn : turnInScope host request clock now wake store = .ok (after, response)) :
    RegistryStep store after := by
  obtain ⟨resolved, registered, generation, hresolved, hchange⟩ := turnInScope_eq_ok hturn
  cases hresolved with
  | moved _ _ _ _ _ _ _ hmoved => exact .moved hmoved hchange
  | _ => exact .unmoved hchange

theorem openCodeContext_registry {native : OpenCodeRequest} {wake : OpenCodeWake}
    {replay : Option TurnResponse}
    (hcontext : openCodeContext host request native now store = .ok (after, wake, replay)) :
    SameRegistry store after :=
  openCodeContext_cases hcontext (SameRegistry.refl store) fun _ _ _ => ⟨rfl, rfl, rfl⟩

theorem relayTurn_registry :
    RegistryStep store (relayTurn host request clock now store).1 :=
  relayTurn_cases (SameRegistry.refl store).step turnInScope_registry
    (fun _ hcontext => (openCodeContext_registry hcontext).step)
    fun _ hcontext hturn =>
      (turnInScope_registry hturn).after_same (openCodeContext_registry hcontext)

end Turns

section Messages

variable {host : Host} {now : ℤ} {store after : RelayStore}

variable {message : RelayMessage}

theorem relayStatusInSession_registry {stamps : DeliveryStamps} {offset : ℕ} {limit : Option ℕ}
    {view : StatusView} (hstatus : relayStatusInSession host stamps now offset limit message store =
      .ok (after, view)) : Mailed store after := by
  simp only [relayStatusInSession, bind_eq_ok, require_eq_ok, pure_eq_ok, Prod.mk.injEq] at hstatus
  obtain ⟨-, -, rfl, -⟩ := hstatus
  split
  · exact ⟨⟨⟨rfl, rfl, rfl⟩, rfl⟩, rfl⟩
  · exact Mailed.refl store

theorem addMessage_registry {target : RelaySession}
    (hadd : addMessage host message target store = .ok after) : Mailed store after := by
  simp only [addMessage, bind_eq_ok, require_eq_ok, orRaise_eq_ok, pure_eq_ok] at hadd
  obtain ⟨messages, -, -, -, deliveries, -, rfl⟩ := hadd
  exact ⟨⟨⟨rfl, rfl, rfl⟩, rfl⟩, rfl⟩

theorem relaySend_registry (request : SendRequest) :
    Mailed store (relaySend host request now store).1 := by
  refine transaction_related (Mailed.refl store) fun after view hbody => ?_
  simp only [relaySendBody, bind_eq_ok, orRaise_eq_ok, require_eq_ok] at hbody
  obtain ⟨sender, -, -, -, -, -, hbody⟩ := hbody
  split at hbody
  · simp only [bind_eq_ok, require_eq_ok] at hbody
    obtain ⟨-, -, hstatus⟩ := hbody
    exact relayStatusInSession_registry hstatus
  · simp only [bind_eq_ok] at hbody
    obtain ⟨target, -, added, hadded, hstatus⟩ := hbody
    exact (addMessage_registry hadded).trans (relayStatusInSession_registry hstatus)

theorem answer_registry {request : ReplyRequest} {delivery : RelayDelivery} {view : StatusView}
    (hanswer : answer host request now delivery message store = .ok (after, view)) :
    Mailed store after := by
  unfold answer at hanswer
  simp only [bind_eq_ok, orRaise_eq_ok, require_eq_ok] at hanswer
  obtain ⟨sender, -, -, -, hanswer⟩ := hanswer
  split at hanswer
  · simp only [bind_eq_ok, require_eq_ok] at hanswer
    obtain ⟨-, -, hstatus⟩ := hanswer
    exact relayStatusInSession_registry hstatus
  · simp only [bind_eq_ok, orRaise_eq_ok, require_eq_ok] at hanswer
    obtain ⟨recipient, -, -, -, -, -, added, hadded, hstatus⟩ := hanswer
    refine (addMessage_registry hadded).trans (Mailed.trans ?_
      (relayStatusInSession_registry hstatus))
    split
    · exact ⟨⟨⟨rfl, rfl, rfl⟩, rfl⟩, rfl⟩
    · exact Mailed.refl added

theorem relayReplyAtomic_registry (request : ReplyRequest) :
    Mailed store (relayReplyAtomic host request now store).1 := by
  change Mailed store (transaction (relayReplyBody host request now) store).1
  refine transaction_related (Mailed.refl store) fun after result hbody => ?_
  simp only [relayReplyBody, bind_eq_ok, orRaise_eq_ok] at hbody
  obtain ⟨row, -, allowed, -, hbody⟩ := hbody
  cases allowed with
  | true =>
    simp only [if_true, bind_eq_ok, pure_eq_ok, Prod.mk.injEq] at hbody
    obtain ⟨⟨answered, view⟩, hanswer, rfl, -⟩ := hbody
    exact answer_registry hanswer
  | false =>
    simp only [Bool.false_eq_true, if_false, pure_eq_ok, Prod.mk.injEq] at hbody
    exact hbody.1 ▸ ⟨⟨⟨rfl, rfl, rfl⟩, rfl⟩, rfl⟩

theorem AckOutcome.registry {deliveryId : String} {accepts : RelayDelivery → Prop}
    {outcome : RelayStore × Except RelayError AckResult}
    (houtcome : AckOutcome now store deliveryId accepts outcome) :
    Mailed store outcome.1 := by
  cases houtcome <;> exact ⟨⟨⟨rfl, rfl, rfl⟩, rfl⟩, rfl⟩

theorem relayMessageStatus_registry (messageId : String) (offset pageSize : Option ℕ) :
    Mailed store (relayMessageStatus host messageId offset pageSize now store).1 := by
  refine transaction_related (Mailed.refl store) fun after view hbody => ?_
  simp only [bind_eq_ok, orRaise_eq_ok] at hbody
  obtain ⟨message, -, hstatus⟩ := hbody
  exact relayStatusInSession_registry hstatus

theorem relayEndpointRepairApply_registry (manifest : RepairManifest)
    (evidence : RepairEvidence) :
    Undisturbed store (relayEndpointRepairApply host manifest evidence now store).1 := by
  refine transaction_related (Undisturbed.refl store) fun after result hbody => ?_
  simp only [relayEndpointRepairBody, bind_eq_ok] at hbody
  obtain ⟨-, -, hbody⟩ := hbody
  split at hbody
  · simp only [bind_eq_ok, pure_eq_ok, Prod.mk.injEq] at hbody
    obtain ⟨-, -, rfl, -⟩ := hbody
    exact Undisturbed.refl store
  · simp only [bind_eq_ok, pure_eq_ok, Prod.mk.injEq] at hbody
    obtain ⟨-, -, -, -, destination, -, -, -, repairs, -, rfl, -⟩ := hbody
    exact ⟨⟨rfl, rfl, rfl⟩, rfl⟩

end Messages

/-- The operations on messages and deliveries alone. -/
def RelayOp.Mails : RelayOp → Prop
  | send _ _ | reply _ _ | ack _ _ _ | ackByReceipt _ _ _ | messageStatus _ _ _ _ => True
  | _ => False

theorem RelayOp.step_mailed {host : Host} {store : RelayStore} {op : RelayOp} (hmails : op.Mails) :
    Mailed store (op.step host store) := by
  cases op with
  | send request now => exact relaySend_registry request
  | reply request now => exact relayReplyAtomic_registry _
  | ack deliveryId claimToken now => exact (relayAck_outcome deliveryId claimToken).registry
  | ackByReceipt deliveryId receipt now =>
    exact (relayAckByReceipt_outcome host deliveryId receipt).registry
  | messageStatus messageId offset pageSize now =>
    exact relayMessageStatus_registry messageId offset pageSize
  | _ => exact hmails.elim

theorem RelayOp.step_registry (host : Host) (store : RelayStore) (op : RelayOp) :
    RegistryStep store (op.step host store) := by
  cases op with
  | turn request clock now => exact relayTurn_registry
  | openCodeContext request maxChars now => exact relayTurn_registry
  | repairApply manifest evidence now =>
    exact (relayEndpointRepairApply_registry manifest evidence).step
  | openCodeWake | closeSession | nameSession | markActive | markUnreachable =>
    exact .unmoved (RelayOp.step_written (by trivial)).registry
  | _ => exact (RelayOp.step_mailed (by trivial)).step

end Pallium.Relay
