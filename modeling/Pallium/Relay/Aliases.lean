import Pallium.Relay.Registry

/-!
# Aliases are a bijection

An alias is stored twice, in the alias table and in the row of its session.  In
every reachable store the two copies agree, so that no two sessions share an
alias, and closed sessions have none.  A message sent to an alias goes to the
one session that carries it.
-/

namespace Pallium.Relay

open Pallium.Run Pallium.Transaction

/-- The alias table and the aliases of the sessions are inverse to each other. -/
structure AliasesAgree (store : RelayStore) : Prop where
  table : ∀ name binding, store.aliases.get name = some binding →
    ∃ endpointId session, binding.endpointId = some endpointId ∧
      store.sessions.get endpointId = some session ∧ session.aliasName = some name
  column : ∀ endpointId session name, store.sessions.get endpointId = some session →
    session.aliasName = some name → store.aliases.get name = some ⟨name, some endpointId⟩
  closed : ∀ endpointId session, store.sessions.get endpointId = some session →
    session.state = .closed → session.aliasName = none

theorem AliasesAgree.empty : AliasesAgree RelayStore.empty where
  table _ _ hget := nomatch hget
  column _ _ _ hget := nomatch hget
  closed _ _ hget := nomatch hget

section Preservation

variable {before after : RelayStore}

variable {endpointId : String} {change : RelaySession → RelaySession}

/-- Sessions that keep their aliases, and no new closed one. -/
theorem AliasesAgree.of_sameAliases (hagree : AliasesAgree before)
    (hsessions : ∀ endpointId, ∃ change : RelaySession → RelaySession,
      after.sessions.get endpointId = (before.sessions.get endpointId).map change ∧
        ∀ session, (change session).aliasName = session.aliasName ∧
          ((change session).state = .closed → session.state = .closed))
    (haliases : after.aliases = before.aliases) : AliasesAgree after where
  table name binding hget := by
    rw [haliases] at hget
    obtain ⟨endpointId, session, howner, hsession, hname⟩ := hagree.table name binding hget
    obtain ⟨change, hafter, hchange⟩ := hsessions endpointId
    refine ⟨endpointId, change session, howner, ?_, (hchange session).1.trans hname⟩
    rw [hafter, hsession, Option.map_some]
  column endpointId changed name hget hname := by
    obtain ⟨change, hafter, hchange⟩ := hsessions endpointId
    rw [hafter] at hget
    obtain ⟨session, hsession, rfl⟩ := Option.map_eq_some_iff.mp hget
    rw [haliases]
    exact hagree.column endpointId session name hsession ((hchange session).1.symm.trans hname)
  closed endpointId changed hget hclosed := by
    obtain ⟨change, hafter, hchange⟩ := hsessions endpointId
    rw [hafter] at hget
    obtain ⟨session, hsession, rfl⟩ := Option.map_eq_some_iff.mp hget
    rw [(hchange session).1]
    exact hagree.closed endpointId session hsession ((hchange session).2 hclosed)

theorem get_modifySessions (hid : ∀ session, (change session).id = session.id)
    (hsessions : after.sessions = before.sessions.modify endpointId change) (found : String) :
    after.sessions.get found =
      if found = endpointId then (before.sessions.get found).map change
      else before.sessions.get found := by
  rw [hsessions]
  exact Table.get_modify _ _ hid found

section

variable (hagree : AliasesAgree before)
include hagree

theorem AliasesAgree.of_modified
    (hid : ∀ session, (change session).id = session.id)
    (hchange : ∀ session, (change session).aliasName = session.aliasName ∧
      ((change session).state = .closed → session.state = .closed))
    (hsessions : after.sessions = before.sessions.modify endpointId change)
    (haliases : after.aliases = before.aliases) : AliasesAgree after := by
  refine hagree.of_sameAliases (fun found => ?_) haliases
  rw [get_modifySessions hid hsessions]
  split
  · exact ⟨change, rfl, hchange⟩
  · exact ⟨id, by rw [Option.map_id, id], fun session => ⟨rfl, id⟩⟩

theorem Moved.aliasesAgree {containerRef : String}
    (hmoved : Moved before after endpointId containerRef) :
    AliasesAgree after := by
  refine hagree.of_modified ?_ ?_ hmoved.sessions hmoved.aliases
  · exact fun session => rfl
  · exact fun session => ⟨rfl, id⟩

/-- A session loses its alias in both places. -/
theorem AliasesAgree.of_unbound {row : RelaySession}
    (hget : before.sessions.get row.id = some row)
    (hid : ∀ session, (change session).id = session.id)
    (halias : ∀ session, (change session).aliasName = none)
    (hsessions : after.sessions = before.sessions.modify row.id change)
    (haliases : after.aliases = (before.unbindAlias row.aliasName row.id).aliases) :
    AliasesAgree after where
  table name binding hbinding := by
    rw [haliases, get_unbindAlias] at hbinding
    obtain ⟨hbound, hkept⟩ := Option.filter_eq_some_iff.mp hbinding
    obtain ⟨endpointId, session, howner, hsession, hname⟩ := hagree.table name binding hbound
    refine ⟨endpointId, session, howner, ?_, hname⟩
    rw [get_modifySessions hid hsessions, if_neg, hsession]
    rintro rfl
    obtain rfl := Option.eq_some_unique hget hsession
    simp [hname, howner] at hkept
  column endpointId session name hsession hname := by
    rw [get_modifySessions hid hsessions] at hsession
    split at hsession
    · obtain ⟨other, -, rfl⟩ := Option.map_eq_some_iff.mp hsession
      rw [halias] at hname
      cases hname
    · next hother =>
        rw [haliases, get_unbindAlias, hagree.column endpointId session name hsession hname]
        simp [Option.filter_some, hother]
  closed endpointId session hsession hclosed := by
    rw [get_modifySessions hid hsessions] at hsession
    split at hsession
    · obtain ⟨other, -, rfl⟩ := Option.map_eq_some_iff.mp hsession
      exact halias other
    · exact hagree.closed endpointId session hsession hclosed

theorem AliasesAgree.of_registered {session : RelaySession}
    (hstate : session.state = .active) (halias : session.aliasName = none)
    (hinsert : before.sessions.insertNew session = some after.sessions)
    (haliases : after.aliases = before.aliases) : AliasesAgree after where
  table name binding hget := by
    rw [haliases] at hget
    obtain ⟨endpointId, found, howner, hfound, hname⟩ := hagree.table name binding hget
    refine ⟨endpointId, found, howner, ?_, hname⟩
    rw [Table.get_insertNew hinsert, if_neg, hfound]
    rintro rfl
    rw [Table.get_eq_none_of_insertNew hinsert] at hfound
    cases hfound
  column endpointId found name hget hname := by
    rw [Table.get_insertNew hinsert] at hget
    split at hget
    · cases hget
      rw [halias] at hname
      cases hname
    · rw [haliases]
      exact hagree.column endpointId found name hget hname
  closed endpointId found hget hclosed := by
    rw [Table.get_insertNew hinsert] at hget
    split at hget
    · cases hget
      rw [hstate] at hclosed
      cases hclosed
    · exact hagree.closed endpointId found hget hclosed

end

section Naming

variable {row : RelaySession} {newAlias : String}

theorem state_nameSession (endpointId newAlias : String) (session : RelaySession) :
    (nameSession endpointId newAlias session).state = session.state := by
  unfold nameSession
  split
  · rfl
  · split <;> rfl

theorem aliasName_nameSession_of_ne {endpointId : String} {session : RelaySession}
    (hother : session.id ≠ endpointId) :
    (nameSession endpointId newAlias session).aliasName =
      session.aliasName.filter fun name => name != newAlias := by
  unfold nameSession
  rw [if_neg hother]
  cases halias : session.aliasName with
  | none => simp [halias]
  | some name =>
    by_cases hname : name = newAlias
    · simp [hname, Option.filter_some]
    · simp [hname, halias, Option.filter_some]

theorem get_unbindOther (store : RelayStore) (row : RelaySession) (newAlias name : String) :
    (store.unbindOther row newAlias).aliases.get name =
      (store.aliases.get name).filter fun binding =>
        !(row.aliasName == some name && name != newAlias && binding.endpointId == some row.id) := by
  unfold RelayStore.unbindOther
  split
  · next hsame =>
      cases store.aliases.get name with
      | none => rfl
      | some binding =>
        by_cases hname : name = newAlias
        · simp [Option.filter_some, hname]
        · simp [Option.filter_some, hsame, Ne.symm hname]
  · next hother =>
      rw [get_unbindAlias]
      congr 1
      funext binding
      by_cases hname : name = newAlias
      · simp [hname, hother]
      · simp [bne_iff_ne.mpr hname]

theorem AliasesAgree.of_named (hagree : AliasesAgree before)
    (hget : before.sessions.get row.id = some row) (hopen : row.state ≠ .closed)
    (hsessions : after.sessions = before.sessions.updateAll (nameSession row.id newAlias))
    (haliases : after.aliases =
      (before.unbindOther row newAlias).aliases.put ⟨newAlias, some row.id⟩) :
    AliasesAgree after := by
  have hafter : ∀ endpointId, after.sessions.get endpointId =
      (before.sessions.get endpointId).map (nameSession row.id newAlias) := by
    intro endpointId
    rw [hsessions]
    exact Table.get_updateAll _ (id_nameSession row.id newAlias) endpointId
  have hput : ∀ name, after.aliases.get name =
      if name = newAlias then some ⟨newAlias, some row.id⟩
      else (before.unbindOther row newAlias).aliases.get name := by
    intro name
    rw [haliases]
    exact Table.get_put _ _ name
  have hnamed : (nameSession row.id newAlias row).aliasName = some newAlias := by
    rw [nameSession, if_pos rfl]
  refine ⟨fun name binding hbinding => ?_, fun endpointId changed name hchanged hname => ?_,
    fun endpointId changed hchanged hclosed => ?_⟩
  · rw [hput] at hbinding
    split at hbinding
    · next hnew =>
        cases hbinding
        subst hnew
        exact ⟨row.id, _, rfl, by rw [hafter, hget, Option.map_some], hnamed⟩
    · next hnew =>
        rw [get_unbindOther] at hbinding
        obtain ⟨hbound, hkept⟩ := Option.filter_eq_some_iff.mp hbinding
        obtain ⟨endpointId, session, howner, hsession, hname⟩ := hagree.table name binding hbound
        have hother : session.id ≠ row.id := by
          intro hsame
          obtain rfl : session.id = endpointId := Table.key_of_get hsession
          rw [hsame] at hsession howner
          obtain rfl := Option.eq_some_unique hget hsession
          simp [hname, howner, hnew] at hkept
        refine ⟨endpointId, _, howner, by rw [hafter, hsession, Option.map_some], ?_⟩
        rw [aliasName_nameSession_of_ne hother, hname, Option.filter_some, if_pos (by simpa using hnew)]
  · rw [hafter] at hchanged
    obtain ⟨session, hsession, rfl⟩ := Option.map_eq_some_iff.mp hchanged
    obtain rfl : session.id = endpointId := Table.key_of_get hsession
    rw [hput]
    by_cases hrow : session.id = row.id
    · rw [nameSession, if_pos hrow] at hname
      cases hname
      rw [if_pos rfl, hrow]
    · rw [aliasName_nameSession_of_ne hrow] at hname
      obtain ⟨hold, hnew⟩ := Option.filter_eq_some_iff.mp hname
      rw [if_neg (by simpa using hnew), get_unbindOther,
        hagree.column session.id session name hsession hold]
      simp [Option.filter_some, hrow]
  · rw [hafter] at hchanged
    obtain ⟨session, hsession, rfl⟩ := Option.map_eq_some_iff.mp hchanged
    obtain rfl : session.id = endpointId := Table.key_of_get hsession
    rw [state_nameSession] at hclosed
    have hnone := hagree.closed session.id session hsession hclosed
    have hother : session.id ≠ row.id := by
      intro hsame
      rw [hsame] at hsession
      obtain rfl := Option.eq_some_unique hget hsession
      exact hopen hclosed
    rw [aliasName_nameSession_of_ne hother, hnone, Option.filter_none]

end Naming

theorem RegistryChange.aliasesAgree (hchange : RegistryChange before after)
    (hagree : AliasesAgree before) : AliasesAgree after := by
  cases hchange with
  | same hsame =>
    refine hagree.of_sameAliases (fun endpointId => ⟨id, ?_, fun session => ⟨rfl, id⟩⟩)
      hsame.aliases
    rw [hsame.sessions, Option.map_id, id]
  | refreshed hchange hsessions _ haliases =>
    exact hagree.of_modified (fun session => (hchange session).id)
      (fun session => ⟨(hchange session).aliasName, (hchange session).state⟩) hsessions haliases
  | registered hstate halias _ hinsert _ haliases =>
    exact hagree.of_registered hstate halias hinsert haliases
  | closed hget hsessions _ haliases =>
    refine hagree.of_unbound hget ?_ ?_ hsessions haliases
    · exact fun session => rfl
    · exact fun session => rfl
  | named hget hopen hsessions _ haliases => exact hagree.of_named hget hopen hsessions haliases
  | unnamed hget hsessions _ haliases =>
    refine hagree.of_unbound hget ?_ ?_ hsessions haliases
    · exact fun session => rfl
    · exact fun session => rfl

theorem RegistryStep.aliasesAgree (hstep : RegistryStep before after)
    (hagree : AliasesAgree before) : AliasesAgree after := by
  cases hstep with
  | unmoved hchange => exact hchange.aliasesAgree hagree
  | moved hmoved hchange => exact hchange.aliasesAgree (hmoved.aliasesAgree hagree)

end Preservation

theorem reached_aliasesAgree (host : Host) (ops : List RelayOp) :
    AliasesAgree (reached host ops) :=
  run_invariant AliasesAgree.empty
    (fun store op hagree => (op.step_registry host store).aliasesAgree hagree) ops

section Sending

variable {host : Host} {now : ℤ} {store : RelayStore} {request : SendRequest}

theorem relayTarget_byAlias {recipientRuntime : Option Runtime} {name : String}
    {target : RelaySession} (hagree : AliasesAgree store)
    (htarget : relayTarget store recipientRuntime .byAlias name = .ok target) :
    store.sessions.get target.id = some target ∧ target.aliasName = some name ∧
      target.state ≠ .unreachable ∧ target.state ≠ .closed := by
  simp only [relayTarget, findTarget, bind_eq_ok, orRaise_eq_ok, require_eq_ok,
    pure_eq_ok] at htarget
  obtain ⟨found, ⟨binding, hbinding, endpointId, howner, -, -, rfl⟩, session, hsession, -,
    hreachable, -, hopen, rfl⟩ := htarget
  obtain ⟨other, carrier, hother, hcarrier, hname⟩ := hagree.table name binding hbinding
  obtain rfl := Option.eq_some_unique howner hother
  obtain rfl := Option.eq_some_unique hsession hcarrier
  obtain rfl : session.id = endpointId := Table.key_of_get hsession
  exact ⟨hsession, hname, hreachable, hopen⟩

/-- The send is refused and changes nothing. -/
def SendRefused (host : Host) (store : RelayStore) (request : SendRequest) (now : ℤ) : Prop :=
  (∃ error, ((RelayOp.send request now).execute host store).2 = .error error) ∧
    (RelayOp.send request now).step host store = store

/-- The send repeats a stored message and writes no delivery. -/
def SendRepeated (host : Host) (store : RelayStore) (request : SendRequest) (now : ℤ) : Prop :=
  (store.messages.get request.messageId).isSome ∧
    ∀ deliveryId, store.deliveries.get deliveryId = none →
      ((RelayOp.send request now).step host store).deliveries.get deliveryId = none

/-- The only delivery the send writes is addressed to the endpoint. -/
def SentTo (host : Host) (store : RelayStore) (request : SendRequest) (now : ℤ)
    (endpointId : String) : Prop :=
  ∃ delivery, store.deliveries.get delivery.id = none ∧
    ((RelayOp.send request now).step host store).deliveries.get delivery.id = some delivery ∧
    delivery.messageId = request.messageId ∧ delivery.recipientEndpointId = some endpointId ∧
    ∀ otherId, otherId ≠ delivery.id → store.deliveries.get otherId = none →
      ((RelayOp.send request now).step host store).deliveries.get otherId = none

theorem sentTo_of_created {message : RelayMessage} {target : RelaySession}
    {added after : RelayStore} (hadded : Added host message target store added)
    (hid : message.id = request.messageId) (hsweeps : Sweeps now added after)
    (hafter : (RelayOp.send request now).step host store = after) :
    SentTo host store request now target.id := by
  subst hafter
  have hfresh : added.deliveries.get (nextDeliveryId host store) =
      some (RelayDelivery.fresh (nextDeliveryId host store) message.id target) := by
    rw [hadded.deliveries, if_pos rfl]
  have hothers : ∀ otherId, otherId ≠ nextDeliveryId host store →
      store.deliveries.get otherId = none →
        ((RelayOp.send request now).step host store).deliveries.get otherId = none := by
    intro otherId hother hbefore
    refine hsweeps.absent otherId ?_
    rw [hadded.deliveries, if_neg hother, hbefore]
  rcases hsweeps.deliveries _ _ hfresh with hsame | ⟨-, hexpired⟩
  · exact ⟨RelayDelivery.fresh (nextDeliveryId host store) message.id target,
      hadded.newDelivery, hsame, hid, rfl, hothers⟩
  · exact ⟨(RelayDelivery.fresh (nextDeliveryId host store) message.id target).markExpired,
      hadded.newDelivery, hexpired, hid, rfl, hothers⟩

theorem send_byAlias (hagree : AliasesAgree store) (hkind : request.recipientKind = .byAlias) :
    SendRefused host store request now ∨ SendRepeated host store request now ∨
      ∃ endpointId session, store.sessions.get endpointId = some session ∧
        session.aliasName = some request.recipientValue ∧
        SentTo host store request now endpointId := by
  have hexecute : (RelayOp.send request now).execute host store =
      wrap .status (relaySend host request now store) := rfl
  have houtcome := @relaySend_outcome host now store request
  generalize relaySend host request now store = outcome at houtcome hexecute
  have hstep : (RelayOp.send request now).step host store = outcome.1 := by
    rw [RelayOp.step, hexecute]
    rfl
  cases houtcome with
  | refused error =>
    refine Or.inl ⟨⟨error, ?_⟩, hstep⟩
    rw [hexecute]
    rfl
  | repeated _ hexisting _ hsweeps =>
    refine Or.inr (Or.inl ⟨by rw [hexisting]; rfl, fun deliveryId hnone => ?_⟩)
    rw [hstep]
    exact hsweeps.absent deliveryId hnone
  | @created sender target added after view _ _ htarget hadded hsweeps =>
    rw [hkind] at htarget
    obtain ⟨hget, hname, -⟩ := relayTarget_byAlias hagree htarget
    exact Or.inr (Or.inr ⟨target.id, target, hget, hname,
      sentTo_of_created hadded rfl hsweeps hstep⟩)

end Sending

section Example

/-- The second session takes an alias. -/
def exampleNamed : List RelayOp :=
  [.turn (exampleTurn .codex "sender") exampleClock 0,
    .turn (exampleTurn .claudeCode "recipient") exampleClock 0,
    .nameSession .claudeCode "recipient" "repo:a" (some "bob") false 0]

def exampleAliasSend : SendRequest :=
  { exampleSend "message" with
    recipient := "@bob", recipientKind := .byAlias, recipientValue := "bob" }

end Example

end Pallium.Relay
