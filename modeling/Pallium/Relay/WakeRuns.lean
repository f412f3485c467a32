import Pallium.Relay.Generations

/-!
# Runs of the OpenCode wake

What holds of a wake row over whole runs: a native input id names one attempt at
one delivery, every generation claims at most once, a context request only shows
again what its own generation claimed, and nobody acts on a wake that another
owner holds.
-/

namespace Pallium.Relay

open Pallium.Run Pallium.Transaction Pallium.Calendar

section Claims

variable {store after : RelayStore} {now : ℤ} {wake next : OpenCodeWake}
  {claim : Option WakeClaim} {claims : List WakeClaim}

theorem WakeChange.claimAttempts (hchange : WakeChange store now wake none next)
    (hclaimed : next.claimAttempts.isSome) :
    next.generation = wake.generation ∧ next.claimAttempts = wake.claimAttempts := by
  cases hchange with
  | @enrolled request =>
    simp only [OpenCodeWake.takenOver] at hclaimed ⊢
    split at hclaimed
    · cases hclaimed
    · next hsame =>
        rw [if_neg hsame]
        exact ⟨rfl, rfl⟩
  | @polled session request =>
    generalize hheld : { wake with ownerExpiresAt := now + seconds 15 } = held at hclaimed ⊢
    have hassigned := assignOldest_cases store session request now (settleTerminal store now held)
    rcases hassigned with hkept | ⟨-, hnext⟩
    · rw [hkept] at hclaimed ⊢
      rcases settleTerminal_cases store now held with hsame | ⟨-, hdropped⟩ | ⟨-, hretried⟩
      · rw [hsame, ← hheld]
        exact ⟨rfl, rfl⟩
      · rw [hdropped, ← hheld]
        exact ⟨rfl, rfl⟩
      · rw [hretried] at hclaimed
        cases hclaimed
    · rw [hnext.claimAttempts] at hclaimed
      cases hclaimed
  | closed => cases hclaimed
  | _ => exact ⟨rfl, rfl⟩

/-- The claims made so far for a wake, each by an earlier generation or the one
it remembers. -/
structure ClaimsAgree (claims : List WakeClaim) (wake : OpenCodeWake) : Prop where
  ordered : claims.Pairwise fun first second => first.generation < second.generation
  current : ∀ claim ∈ claims, claim.generation ≤ wake.generation
  remembered : ∀ claim ∈ claims, claim.generation = wake.generation →
    wake.claimAttempts = some claim.attempts ∧
      (wake.deliveryId = some claim.deliveryId ∨ wake.deliveryId = none)
  made : wake.claimAttempts.isSome → ∃ claim ∈ claims, claim.generation = wake.generation

theorem ClaimsAgree.step (hagree : ClaimsAgree claims wake)
    (hchange : WakeChange store now wake claim next) :
    ClaimsAgree (claims ++ claim.toList) next := by
  cases claim with
  | none =>
    rw [Option.toList_none, List.append_nil]
    refine ⟨hagree.ordered, fun made hmade => ?_, fun made hmade hgeneration => ?_,
      fun hclaimed => ?_⟩
    · exact (hagree.current made hmade).trans hchange.step.generation_le
    · cases hchange.step with
      | same hsame =>
        have hold := hgeneration.trans hsame.generation
        obtain ⟨hattempts, hdelivery⟩ := hagree.remembered made hmade hold
        refine ⟨?_, ?_⟩
        · rw [hsame.claimAttempts (by rw [hattempts]; rfl), hattempts]
        · rcases hsame.deliveryId with hkept | ⟨hdropped, -⟩
          · rw [hkept]
            exact hdelivery
          · exact Or.inr hdropped
      | next hnext =>
        have hle := hagree.current made hmade
        have hlater := hnext.generation
        omega
    · obtain ⟨hgeneration, hsame⟩ := hchange.claimAttempts hclaimed
      rw [hsame] at hclaimed
      rw [hgeneration]
      exact hagree.made hclaimed
  | some made =>
    cases hchange with
    | claimed hheld hdelivery hunclaimed =>
      have hearlier : ∀ other ∈ claims, other.generation < wake.generation := by
        intro other hother
        refine lt_of_le_of_ne (hagree.current other hother) fun hsame => ?_
        rw [(hagree.remembered other hother hsame).1] at hunclaimed
        cases hunclaimed
      rw [Option.toList_some]
      refine ⟨?_, fun other hother => ?_, fun other hother hgeneration => ?_, fun _ => ?_⟩
      · refine List.pairwise_append.mpr ⟨hagree.ordered, List.pairwise_singleton _ _, ?_⟩
        intro other hother last hlast
        obtain rfl := List.mem_singleton.mp hlast
        exact hearlier other hother
      · rcases List.mem_append.mp hother with hbefore | hnew
        · exact (hearlier other hbefore).le
        · obtain rfl := List.mem_singleton.mp hnew
          exact le_rfl
      · rcases List.mem_append.mp hother with hbefore | hnew
        · exact absurd hgeneration (hearlier other hbefore).ne
        · obtain rfl := List.mem_singleton.mp hnew
          exact ⟨rfl, Or.inl hdelivery⟩
      · exact ⟨_, List.mem_append_right _ (List.mem_singleton_self _), rfl⟩

/-- The claims agree with the row of the endpoint, if there is one. -/
def RowAgrees (claims : List WakeClaim) : Option OpenCodeWake → Prop
  | none => claims = []
  | some wake => ClaimsAgree claims wake

theorem contextClaim_of_none {host : Host} {op : RelayOp} {endpointId : String}
    (hnone : store.openCodeWakes.get endpointId = none) :
    contextClaim host store op endpointId = none := by
  unfold contextClaim
  split
  · rw [hnone, Option.bind_none, ite_self]
  · rfl

theorem RowAgrees.step {host : Host} {op : RelayOp} {endpointId : String}
    (hagree : RowAgrees claims (store.openCodeWakes.get endpointId)) (hvalid : op.Validated) :
    RowAgrees (claims ++ (contextClaim host store op endpointId).toList)
      ((op.step host store).openCodeWakes.get endpointId) := by
  have hwakes := op.step_wakes host store hvalid
  cases hget : store.openCodeWakes.get endpointId with
  | none =>
    rw [hget] at hagree
    have hempty : claims = [] := hagree
    rw [contextClaim_of_none hget, Option.toList_none, List.append_nil, hempty]
    cases hborn : (op.step host store).openCodeWakes.get endpointId with
    | none => rfl
    | some born =>
      obtain ⟨-, -, hunclaimed⟩ := hwakes.born endpointId born hget hborn
      refine ⟨.nil, fun _ hmade => (List.not_mem_nil hmade).elim,
        fun _ hmade => (List.not_mem_nil hmade).elim, fun hclaimed => ?_⟩
      rw [hunclaimed] at hclaimed
      cases hclaimed
  | some wake =>
    rw [hget] at hagree
    obtain ⟨next, hnext, hchange⟩ := hwakes.kept endpointId wake hget
    rw [hnext]
    exact ClaimsAgree.step hagree hchange

/-- The claims that context requests make for the wake of an endpoint in a run. -/
def claimsOf (host : Host) (endpointId : String) (ops : List RelayOp) : List WakeClaim :=
  observations (RelayOp.step host) (fun store op => contextClaim host store op endpointId)
    RelayStore.empty ops

end Claims

section Runs

variable {host : Host} {endpointId : String} {ops later : List RelayOp} {wake next : OpenCodeWake}

theorem reached_rowAgrees (hvalid : ∀ op ∈ ops, op.Validated) :
    RowAgrees (claimsOf host endpointId ops)
      ((reached host ops).openCodeWakes.get endpointId) := by
  induction ops using List.reverseRecOn with
  | nil => rfl
  | append_singleton ops op ih =>
    have hbefore := ih fun other hother => hvalid other (List.mem_append_left _ hother)
    have hop := hvalid op (List.mem_append_right _ (List.mem_singleton_self op))
    rw [reached_snoc, claimsOf, observations_append]
    have hlast : observations (RelayOp.step host)
        (fun store op => contextClaim host store op endpointId)
        (run (RelayOp.step host) RelayStore.empty ops) [op] =
          (contextClaim host (reached host ops) op endpointId).toList := List.append_nil _
    rw [hlast]
    exact hbefore.step hop

theorem wake_run (store : RelayStore) (hvalid : ∀ op ∈ later, op.Validated)
    (hget : store.openCodeWakes.get endpointId = some wake) :
    ∃ next, (run (RelayOp.step host) store later).openCodeWakes.get endpointId = some next ∧
      (wake.generation < next.generation ∨ SameAttempt wake next) := by
  induction later generalizing store wake with
  | nil => exact ⟨wake, hget, Or.inr (SameAttempt.refl wake)⟩
  | cons op rest ih =>
    obtain ⟨kept, hkept, hchange⟩ :=
      (op.step_wakes host store (hvalid op List.mem_cons_self)).kept endpointId wake hget
    obtain ⟨next, hnext, hlater⟩ :=
      ih (op.step host store) (List.forall_mem_cons.mp hvalid).2
        hkept
    refine ⟨next, hnext, ?_⟩
    have hle := hchange.step.generation_le
    rcases hlater with hlt | hsecond
    · exact Or.inl (hle.trans_lt hlt)
    · cases hchange.step with
      | same hfirst => exact Or.inr (hfirst.trans hsecond)
      | next hfirst =>
        have hgeneration := hfirst.generation
        have hsame := hsecond.generation
        exact Or.inl (by omega)

theorem generation_of_nativeId (hendpoint : next.endpointId = wake.endpointId)
    (hnative : next.nativeId = wake.nativeId) : next.generation = wake.generation := by
  rw [OpenCodeWake.nativeId, OpenCodeWake.nativeId, hendpoint, String.append_right_inj] at hnative
  have hdigits : Nat.toDigits 10 next.generation = Nat.toDigits 10 wake.generation := by
    rw [← Nat.toList_repr, ← Nat.toList_repr]
    exact congrArg String.toList hnative
  rw [← @Nat.ofDigitChars_ten_toDigits next.generation, hdigits, Nat.ofDigitChars_ten_toDigits]

end Runs

section Guards

variable {host : Host} {store : RelayStore}

/-- The request of an operation of the OpenCode bridge. -/
def RelayOp.openCodeRequest : RelayOp → Option OpenCodeRequest
  | .openCodeWake _ request _ => some request
  | .openCodeContext request _ _ => some request
  | _ => none

/-- The operation is refused and changes nothing. -/
def OpRefused (host : Host) (store : RelayStore) (op : RelayOp) : Prop :=
  (∃ error, (op.execute host store).2 = .error error) ∧ op.step host store = store

theorem refused_of_other_owner {op : RelayOp} {request : OpenCodeRequest} {wake : OpenCodeWake}
    {owner : String} (hrequest : op.openCodeRequest = some request)
    (hget : store.openCodeWakes.get request.endpointId = some wake)
    (howner : wake.ownerId = some owner) (hother : request.ownerId ≠ owner)
    (hlive : op.now < wake.ownerExpiresAt) : OpRefused host store op := by
  have hheld : wake.heldBy request op.now = false := by
    have hne : (wake.ownerId == some request.ownerId) = false := by
      rw [howner, beq_eq_false_iff_ne, Ne, Option.some.injEq]
      exact fun hsame => hother hsame.symm
    rw [OpenCodeWake.heldBy, hne, Bool.false_and, Bool.false_and, Bool.false_and]
  cases op with
  | openCodeWake operation request' now =>
    obtain rfl := Option.some.inj hrequest
    rcases transaction_cases (relayOpenCodeWakeBody operation request' now) store with
      ⟨after, response, hbody, -⟩ | ⟨error, -, htransaction⟩
    · exfalso
      simp only [relayOpenCodeWakeBody, bind_eq_ok] at hbody
      obtain ⟨⟨session, held⟩, hbinding, next, hoperate, -⟩ := hbody
      have hbound := openCodeBinding_eq_ok hbinding
      obtain rfl : held = some wake := hbound.wake.symm.trans hget
      rcases hbound.owned with henroll | howned
      · obtain rfl := of_decide_eq_true henroll
        simp only [operateWake, bind_eq_ok] at hoperate
        obtain ⟨enrolled, henrolled, -⟩ := hoperate
        rcases enrollWake_eq_ok henrolled with ⟨hnone, -⟩ | ⟨found, hfound, hfree, -⟩
        · cases hnone
        · cases hfound
          rcases hfree with hnobody | hown | hended
          · rw [howner] at hnobody
            cases hnobody
          · exact hother (Option.eq_some_unique hown howner)
          · exact absurd hended (not_le.mpr hlive)
      · rw [Option.any_some] at howned
        exact Bool.false_ne_true (hheld.symm.trans howned)
    · refine ⟨⟨error, ?_⟩, ?_⟩
      · change (relayOpenCodeWake operation request' now store).2.map _ = _
        rw [relayOpenCodeWake, htransaction]
        rfl
      · change (relayOpenCodeWake operation request' now store).1 = store
        rw [relayOpenCodeWake, htransaction]
  | openCodeContext request' maxChars now =>
    obtain rfl := Option.some.inj hrequest
    rcases context_cases host request' maxChars now store with
      ⟨error, herror⟩ | ⟨response, -, heffect⟩
    · exact ⟨⟨error, congrArg Prod.snd herror⟩, congrArg Prod.fst herror⟩
    · exfalso
      have hbound : ∃ session found,
          Bound store request' now false session (some found) := by
        cases heffect with
        | replayed hbound => exact ⟨_, _, hbound⟩
        | went hbound => exact ⟨_, _, hbound⟩
      obtain ⟨session, found, hbound⟩ := hbound
      obtain rfl := Option.eq_some_unique hget hbound.wake
      have howned := hbound.owned.resolve_left (by simp)
      rw [Option.any_some] at howned
      exact Bool.false_ne_true (hheld.symm.trans howned)
  | _ => cases hrequest

end Guards

section Invalidation

variable {host : Host} {store : RelayStore} {wake : OpenCodeWake}

/-- The operation closes the session of the wake, or enrols it again under
another scope or location. -/
def Invalidates (store : RelayStore) (wake : OpenCodeWake) : RelayOp → Prop
  | .closeSession runtime sessionRef containerRef _ =>
    runtime = .openCode ∧ ∃ row, store.relaySession containerRef runtime sessionRef = some row ∧
      row.id = wake.endpointId
  | .openCodeWake .enroll request now =>
    request.endpointId = wake.endpointId ∧
      (∃ response, (relayOpenCodeWake .enroll request now store).2 = .ok response) ∧
      (wake.scopeGeneration ≠ request.scopeGeneration ∨
        wake.nativeLocation ≠ request.nativeLocation)
  | _ => False

/-- The row has lost its assignment to the next generation. -/
def Invalidated (wake next : OpenCodeWake) : Prop :=
  next.generation = wake.generation + 1 ∧ next.deliveryId = none

theorem closeSession_invalidates {sessionRef containerRef : String} {now : ℤ} {row : RelaySession}
    (hrow : store.relaySession containerRef .openCode sessionRef = some row)
    (hid : row.id = wake.endpointId)
    (hget : store.openCodeWakes.get wake.endpointId = some wake) :
    (relayCloseSession .openCode sessionRef containerRef now store).1.openCodeWakes.get
      wake.endpointId = some (wake.closed now) := by
  rcases transaction_cases (relayCloseSessionBody .openCode sessionRef containerRef now) store with
    ⟨after, view, hbody, htransaction⟩ | ⟨error, hbody, -⟩
  · rw [relayCloseSession, htransaction]
    simp only [relayCloseSessionBody, bind_eq_ok, orRaise_eq_ok, pure_eq_ok,
      Prod.mk.injEq] at hbody
    obtain ⟨found, hfound, rfl, -⟩ := hbody
    obtain rfl := Option.eq_some_unique hrow hfound
    rw [unbindAlias_writes, if_pos trivial, hid]
    refine (Table.get_modify_self _ _ ?_).trans ?_
    · exact fun _ => rfl
    · change (store.openCodeWakes.get wake.endpointId).map _ = _
      rw [hget]
      rfl
  · unfold relayCloseSessionBody at hbody
    rw [hrow] at hbody
    cases hbody

theorem enroll_invalidates {request : OpenCodeRequest} {now : ℤ} {response : OpenCodeResponse}
    (hid : request.endpointId = wake.endpointId)
    (hok : (relayOpenCodeWake .enroll request now store).2 = .ok response)
    (hget : store.openCodeWakes.get wake.endpointId = some wake) :
    (relayOpenCodeWake .enroll request now store).1.openCodeWakes.get wake.endpointId =
      some (wake.takenOver request now) := by
  rcases transaction_cases (relayOpenCodeWakeBody .enroll request now) store with
    ⟨after, answer, hbody, htransaction⟩ | ⟨error, -, htransaction⟩
  · rw [relayOpenCodeWake, htransaction]
    simp only [relayOpenCodeWakeBody, bind_eq_ok, pure_eq_ok, Prod.mk.injEq] at hbody
    obtain ⟨⟨session, held⟩, hbinding, next, hoperate, rfl, -⟩ := hbody
    have hbound := openCodeBinding_eq_ok hbinding
    rw [← hid] at hget
    obtain rfl : held = some wake := hbound.wake.symm.trans hget
    simp only [operateWake, bind_eq_ok, pure_eq_ok] at hoperate
    obtain ⟨enrolled, henroll, rfl⟩ := hoperate
    rcases enrollWake_eq_ok henroll with ⟨hnone, -⟩ | ⟨found, hfound, hfree, htaken⟩
    · cases hnone
    · cases hfound
      have hchange : WakeChange store now wake none (wake.takenOver request now) := .enrolled hfree
      rw [if_pos (Or.inl trivial)]
      change (store.openCodeWakes.put { enrolled with ownerExpiresAt := now + seconds 15 }).get _ = _
      rw [htaken, ← hchange.endpointId]
      exact Table.get_put_self _ _
  · rw [relayOpenCodeWake, htransaction] at hok
    cases hok

theorem invalidated_of_invalidates {op : RelayOp} (hinvalidates : Invalidates store wake op)
    (hget : store.openCodeWakes.get wake.endpointId = some wake) :
    ∃ next, (op.step host store).openCodeWakes.get wake.endpointId = some next ∧
      Invalidated wake next := by
  cases op with
  | closeSession runtime sessionRef containerRef now =>
    obtain ⟨rfl, row, hrow, hid⟩ := hinvalidates
    exact ⟨wake.closed now, closeSession_invalidates hrow hid hget, rfl, rfl⟩
  | openCodeWake operation request now =>
    cases operation with
    | enroll =>
      obtain ⟨hid, ⟨response, hok⟩, hother⟩ := hinvalidates
      refine ⟨wake.takenOver request now, enroll_invalidates hid hok hget, ?_⟩
      simp only [Invalidated, OpenCodeWake.takenOver, if_pos hother, OpenCodeWake.invalidate,
        and_self]
    | _ => cases hinvalidates
  | _ => cases hinvalidates

end Invalidation

section Context

variable {host : Host} {store : RelayStore} {request : OpenCodeRequest} {maxChars : ℕ} {now : ℤ}

/-- A context request claims the delivery of its claim and no other. -/
theorem context_attempted {deliveryId : String} {delivery : RelayDelivery}
    (hget : store.deliveries.get deliveryId = some delivery) :
    ∃ changed, ((RelayOp.openCodeContext request maxChars now).step host store).deliveries.get
        deliveryId = some changed ∧
      changed.attempts = delivery.attempts +
        if (contextClaim host store (.openCodeContext request maxChars now)
          request.endpointId).any (fun claim => claim.deliveryId = deliveryId) then 1 else 0 := by
  rcases context_cases host request maxChars now store with
    ⟨error, herror⟩ | ⟨response, -, heffect⟩
  · have hsame : (RelayOp.openCodeContext request maxChars now).step host store = store :=
      congrArg Prod.fst herror
    rw [contextClaim_of_step_eq hsame, hsame]
    exact ⟨delivery, hget, rfl⟩
  · have hcounted : ∃ wake claimedId count, store.openCodeWakes.get request.endpointId = some wake ∧
        request.deliveryId = some claimedId ∧ (store.deliveries.get claimedId).isSome ∧ count ≤ 1 ∧
        Attempted store ((RelayOp.openCodeContext request maxChars now).step host store) claimedId
          count := by
      cases heffect with
      | replayed hbound hrequest hstored _ hattempts =>
        exact ⟨_, _, 0, hbound.wake, hrequest, hstored, Nat.zero_le 1, hattempts⟩
      | went hbound hrequest hstored _ heffect =>
        cases heffect with
        | unclaimed _ hattempts =>
          exact ⟨_, _, 0, hbound.wake, hrequest, hstored, Nat.zero_le 1, hattempts⟩
        | claimed _ _ hattempts =>
          exact ⟨_, _, 1, hbound.wake, hrequest, hstored, le_rfl, hattempts⟩
    obtain ⟨wake, claimedId, count, hwake, hrequest, hstored, hcount, hattempts⟩ := hcounted
    obtain ⟨anchor, hanchor⟩ := Option.isSome_iff_exists.mp hstored
    obtain ⟨changed, hchanged, hnumber⟩ := hattempts deliveryId delivery hget
    refine ⟨changed, hchanged, ?_⟩
    rw [hnumber, contextClaim_of_attempted hwake hrequest hanchor hattempts]
    obtain rfl | rfl : count = 0 ∨ count = 1 := by omega
    · simp
    · simp [eq_comm]

/-- What a context request shows without claiming is the claim of its own generation. -/
theorem context_replays {claims : List WakeClaim} {response : TurnResponse}
    (hagree : RowAgrees claims (store.openCodeWakes.get request.endpointId))
    (hvalid : validateWakeSnapshot none request = .ok ())
    (hok : ((RelayOp.openCodeContext request maxChars now).execute host store).2 =
      .ok (.turn response))
    (hnone : contextClaim host store (.openCodeContext request maxChars now)
      request.endpointId = none) :
    ∀ view ∈ response.deliveries, ∃ claim ∈ claims, some claim.generation = request.generation ∧
      claim.deliveryId = view.deliveryId ∧ claim.attempts = view.attempts := by
  rcases context_cases host request maxChars now store with
    ⟨error, herror⟩ | ⟨answer, hanswer, heffect⟩
  · rw [herror] at hok
    cases hok
  · cases hanswer.symm.trans hok
    intro view hview
    cases heffect with
    | @replayed session wake deliveryId hbound hrequest _ _ _ hviews =>
      obtain ⟨hid, hattempts⟩ := hviews view hview
      rw [hbound.wake] at hagree
      have hagrees : ClaimsAgree claims wake := hagree
      obtain ⟨claim, hclaim, hgeneration⟩ := hagrees.made (by rw [hattempts]; rfl)
      obtain ⟨hremembered, hdelivery⟩ := hagrees.remembered claim hclaim hgeneration
      obtain ⟨hsnapshot, hassigned⟩ := hbound.deliveryId hvalid
      rw [hassigned, hrequest] at hdelivery
      refine ⟨claim, hclaim, by rw [hgeneration, hsnapshot], ?_, ?_⟩
      · rw [hid, Option.some.inj (hdelivery.resolve_right (Option.some_ne_none _))]
      · exact Option.eq_some_unique hremembered hattempts
    | @went session wake deliveryId hbound hrequest hstored _ heffect =>
      cases heffect with
      | unclaimed _ _ hviews =>
        rw [hviews] at hview
        cases hview
      | claimed hget _ hattempts =>
        rw [contextClaim_of_attempted hbound.wake hrequest hget hattempts,
          if_pos ⟨rfl, Nat.one_ne_zero⟩] at hnone
        cases hnone

end Context

section Runs

variable {host : Host} {endpointId : String} {ops : List RelayOp} {wake : OpenCodeWake}

theorem reached_wake {later : List RelayOp} (hlater : ∀ op ∈ later, op.Validated)
    (hget : (reached host ops).openCodeWakes.get endpointId = some wake) :
    ∃ next, (reached host (ops ++ later)).openCodeWakes.get endpointId = some next ∧
      wake.generation ≤ next.generation ∧
      (next.nativeId = wake.nativeId → SameAttempt wake next) := by
  obtain ⟨next, hnext, hcases⟩ := @wake_run host endpointId later wake (reached host ops) hlater hget
  refine ⟨next, ?_, ?_, fun hnative => ?_⟩
  · rw [reached, run_append]
    exact hnext
  · rcases hcases with hlt | hsame
    · exact hlt.le
    · exact hsame.generation.ge
  · have hendpoint : next.endpointId = wake.endpointId :=
      (Table.key_of_get hnext).trans (Table.key_of_get hget).symm
    have hgeneration := generation_of_nativeId hendpoint hnative
    exact hcases.resolve_left (by omega)

/-- A wake row changes only in the listed ways, and every assignment, retry and
invalidation starts a new generation. -/
theorem reached_wakeChange {op : RelayOp} (hop : op.Validated)
    (hget : (reached host ops).openCodeWakes.get endpointId = some wake) :
    ∃ next, (reached host (ops ++ [op])).openCodeWakes.get endpointId = some next ∧
      WakeChange (reached host ops) op.now wake
        (contextClaim host (reached host ops) op endpointId) next ∧
      ((next.deliveryId.isSome ∧ next.deliveryId ≠ wake.deliveryId) ∨
        wake.failures < next.failures → wake.generation < next.generation) ∧
      (Invalidates (reached host ops) wake op → Invalidated wake next) := by
  obtain ⟨next, hnext, hchange⟩ := (op.step_wakes host _ hop).kept endpointId wake hget
  refine ⟨next, by rw [reached_snoc, hnext], hchange, hchange.step.generation_lt,
    fun hinvalidates => ?_⟩
  obtain rfl : wake.endpointId = endpointId := Table.key_of_get hget
  obtain ⟨invalidated, hinvalidated, hlost⟩ :=
    @invalidated_of_invalidates host _ _ _ hinvalidates hget
  obtain rfl := Option.eq_some_unique hinvalidated hnext
  exact hlost

/-- Generations of a wake never repeat an assignment or a claim, context requests
replay only the claim of their generation, and owners exclude each other. -/
theorem openCode_wake_generations (host : Host) {ops : List RelayOp}
    (hvalid : ∀ op ∈ ops, op.Validated) (endpointId : String) :
    (∀ later wake, (∀ op ∈ later, RelayOp.Validated op) →
      (reached host ops).openCodeWakes.get endpointId = some wake →
        ∃ next, (reached host (ops ++ later)).openCodeWakes.get endpointId = some next ∧
          wake.generation ≤ next.generation ∧
          (next.nativeId = wake.nativeId → SameAttempt wake next)) ∧
      (∀ op wake, op.Validated →
        (reached host ops).openCodeWakes.get endpointId = some wake →
          ∃ next, (reached host (ops ++ [op])).openCodeWakes.get endpointId = some next ∧
            WakeChange (reached host ops) op.now wake
              (contextClaim host (reached host ops) op endpointId) next ∧
            ((next.deliveryId.isSome ∧ next.deliveryId ≠ wake.deliveryId) ∨
              wake.failures < next.failures → wake.generation < next.generation) ∧
            (Invalidates (reached host ops) wake op → Invalidated wake next)) ∧
      ((claimsOf host endpointId ops).Pairwise fun first second =>
        first.generation < second.generation) ∧
      (∀ request maxChars now, validateWakeSnapshot none request = .ok () →
        request.endpointId = endpointId →
          let op := RelayOp.openCodeContext request maxChars now
          let claimed := contextClaim host (reached host ops) op endpointId
          (∀ deliveryId delivery,
            (reached host ops).deliveries.get deliveryId = some delivery →
              ∃ changed, (op.step host (reached host ops)).deliveries.get deliveryId =
                  some changed ∧
                changed.attempts = delivery.attempts +
                  if claimed.any (fun claim => claim.deliveryId = deliveryId) then 1 else 0) ∧
            ∀ response, (op.execute host (reached host ops)).2 = .ok (.turn response) →
              claimed = none → ∀ view ∈ response.deliveries,
                ∃ claim ∈ claimsOf host endpointId ops,
                  some claim.generation = request.generation ∧
                  claim.deliveryId = view.deliveryId ∧ claim.attempts = view.attempts) ∧
      ∀ op request wake owner, op.openCodeRequest = some request →
        request.endpointId = endpointId →
          (reached host ops).openCodeWakes.get endpointId = some wake →
            wake.ownerId = some owner → request.ownerId ≠ owner →
              op.now < wake.ownerExpiresAt → OpRefused host (reached host ops) op := by
  have hagree : RowAgrees (claimsOf host endpointId ops)
      ((reached host ops).openCodeWakes.get endpointId) := reached_rowAgrees hvalid
  refine ⟨fun later wake hlater hget => reached_wake hlater hget,
    fun op wake hop hget => reached_wakeChange hop hget, ?_, ?_, ?_⟩
  · cases hget : (reached host ops).openCodeWakes.get endpointId with
    | none =>
      rw [hget] at hagree
      have hempty : claimsOf host endpointId ops = [] := hagree
      rw [hempty]
      exact .nil
    | some wake =>
      rw [hget] at hagree
      exact ClaimsAgree.ordered hagree
  · rintro request maxChars now hrequest rfl
    exact ⟨fun deliveryId delivery hget => context_attempted hget,
      fun response hok hnone => context_replays hagree hrequest hok hnone⟩
  · rintro op request wake owner hrequest rfl hget howner hother hlive
    exact refused_of_other_owner hrequest hget howner hother hlive

end Runs

section Example

/-- The OpenCode session is enrolled and polls its delivery. -/
def exampleEnrolment : OpenCodeRequest where
  sessionRef := "recipient"
  containerRef := "repo:a"
  endpointId := "relay-session-00000000000040008000000000000001"
  scopeGeneration := 0
  nativeLocation := "desk"
  ownerId := "opencode-owner-1"
  generation := none
  deliveryId := none
  nativeInputId := none
  terminalMessageId := none

def exampleWakeRun : List RelayOp :=
  [.turn (exampleTurn .codex "sender") exampleClock 0,
    .turn (exampleTurn .openCode "recipient") exampleClock 0, .send (exampleSend "message") 0,
    .openCodeWake .enroll exampleEnrolment 0, .openCodeWake .poll exampleEnrolment 0]

/-- The wake has a delivery, and keeps its generation when its owner leaves. -/
theorem openCode_wake_generations_poll :
    ∃ wake, (reached exampleHost exampleWakeRun).openCodeWakes.get exampleEnrolment.endpointId =
        some wake ∧ wake.generation = 1 ∧
      ∃ next, (reached exampleHost (exampleWakeRun ++
          [.openCodeWake .detach exampleEnrolment 0])).openCodeWakes.get
            exampleEnrolment.endpointId = some next ∧
        wake.generation ≤ next.generation ∧
        (next.nativeId = wake.nativeId → SameAttempt wake next) := by
  have hassigned : ((reached exampleHost exampleWakeRun).openCodeWakes.get
      exampleEnrolment.endpointId).map OpenCodeWake.generation = some 1 := by
    decide +kernel
  obtain ⟨wake, hget, hgeneration⟩ := Option.map_eq_some_iff.mp hassigned
  obtain ⟨hlater, -⟩ :=
    @openCode_wake_generations exampleHost exampleWakeRun (by decide) exampleEnrolment.endpointId
  exact ⟨wake, hget, hgeneration,
    hlater [.openCodeWake .detach exampleEnrolment 0] wake (by decide) hget⟩

end Example

end Pallium.Relay
