import Pallium.Relay.Registry

/-!
# The repair ledger

A repair is refused, finds its own entry in the ledger, or applies every
disposition of its manifest and enters it in the ledger.  No operation removes
an entry, and a repair is refused if its manifest shares a delivery with an
entry.  So a delivery is dispositioned at most once in any run, and an applied
manifest is answered from the ledger for ever.
-/

namespace Pallium.Relay

open Pallium.Run Pallium.Transaction

variable {host : Host} {now : ℤ} {store after : RelayStore}

section Outcome

variable {manifest : RepairManifest} {evidence : RepairEvidence}

/-- How a repair changes the delivery of one of its dispositions. -/
inductive Disposed (manifest : RepairManifest) (now : ℤ) (item : RepairItem)
    (delivery : RelayDelivery) : RelayDelivery → Prop
  | adopted {endpointId : String} (hdisposition : item.disposition = .adopt)
      (hdestination : manifest.destinationEndpointId = some endpointId)
      (hpending : delivery.state = .pending) :
      Disposed manifest now item delivery { delivery with recipientEndpointId := some endpointId }
  | suppressed (hdisposition : item.disposition = .suppress)
      (hpending : delivery.state = .pending) :
      Disposed manifest now item delivery { delivery with state := .suppressed }
  | released (hdisposition : item.disposition = .suppress) (hversion : manifest.schemaVersion = 2)
      (hrunOut : claimRunOut now delivery) :
      Disposed manifest now item delivery
        { delivery with state := .suppressed, claimToken := none, leaseExpiresAt := none }

def ledgerEntry (host : Host) (manifest : RepairManifest) (now : ℤ) : EndpointRepair where
  manifestDigest := host.manifestDigest manifest
  manifest := manifest
  result := expectedResult host manifest
  committedAt := now

/-- What an applied repair has changed, and what it has not. -/
structure Applied (host : Host) (manifest : RepairManifest) (now : ℤ)
    (before after : RelayStore) : Prop where
  free : before.repairs.get (host.manifestDigest manifest) = none
  once : manifest.deliveryIds.Nodup
  disjoint : ∀ digest entry, before.repairs.get digest = some entry →
    ∀ deliveryId ∈ entry.manifest.deliveryIds, deliveryId ∉ manifest.deliveryIds
  recorded : ∀ digest, after.repairs.get digest =
    if digest = host.manifestDigest manifest then some (ledgerEntry host manifest now)
    else before.repairs.get digest
  disposed : ∀ item ∈ manifest.dispositions, ∃ delivery changed,
    before.deliveries.get item.deliveryId = some delivery ∧
    after.deliveries.get item.deliveryId = some changed ∧
    Disposed manifest now item delivery changed
  untouched : ∀ deliveryId, deliveryId ∉ manifest.deliveryIds →
    after.deliveries.get deliveryId = before.deliveries.get deliveryId
  others : after =
    { before with deliveries := after.deliveries, repairs := after.repairs }

/-- The cases of a repair. -/
inductive RepairOutcome (host : Host) (manifest : RepairManifest) (now : ℤ)
    (store : RelayStore) : RelayStore × Except RelayError RepairResult → Prop
  | refused (error : RelayError) : RepairOutcome host manifest now store (store, .error error)
  | replayed {entry : EndpointRepair}
      (hentry : store.repairs.get (host.manifestDigest manifest) = some entry)
      (hmanifest : entry.manifest = manifest)
      (hresult : entry.result = expectedResult host manifest) :
      RepairOutcome host manifest now store (store, .ok entry.result)
  | applied {after : RelayStore} (happlied : Applied host manifest now store after) :
      RepairOutcome host manifest now store (after, .ok (expectedResult host manifest))

theorem validate_eq_ok {result : Unit} (hvalid : manifest.validate = .ok result) :
    manifest.deliveryIds.Nodup ∧
      (manifest.schemaVersion = 3 → ∀ item ∈ manifest.dispositions,
        item.disposition = .suppress) := by
  have hchecked : manifest.deliveryIds.Nodup ∧
      (manifest.schemaVersion = 3 →
        manifest.dispositions.all RepairManifest.itemUnclaimed = true) := by
    simp only [RepairManifest.validate, bind_eq_ok, require_eq_ok] at hvalid
    obtain ⟨-, -, hvalid⟩ := hvalid
    split at hvalid
    · simp only [bind_eq_ok, require_eq_ok] at hvalid
      obtain ⟨-, -, -, -, -, -, -, hunclaimed, -, -, -, -, -, -, -, hnodup, -⟩ := hvalid
      exact ⟨hnodup, hunclaimed⟩
    · simp only [bind_eq_ok, require_eq_ok] at hvalid
      obtain ⟨-, -, -, -, -, -, -, hunclaimed, -, -, -, -, -, -, -, hnodup, -⟩ := hvalid
      exact ⟨hnodup, hunclaimed⟩
  obtain ⟨hnodup, hunclaimed⟩ := hchecked
  refine ⟨hnodup, fun hversion item hitem => ?_⟩
  have hchecked := List.all_eq_true.mp (hunclaimed hversion) item hitem
  simp only [RepairManifest.itemUnclaimed, Bool.and_eq_true, beq_iff_eq] at hchecked
  exact hchecked.1.1.1.1.1

theorem repairDestination_eq_ok {destination : Option RelaySession}
    (hdestination : repairDestination manifest now store = .ok destination) :
    (manifest.schemaVersion = 3 ∧ destination = none) ∨
      ∃ session, destination = some session ∧
        manifest.destinationEndpointId = some session.id := by
  unfold repairDestination at hdestination
  split at hdestination
  · next hsuppression =>
      simp only [pure_eq_ok] at hdestination
      exact Or.inl ⟨beq_iff_eq.mp hsuppression, hdestination.symm⟩
  · simp only [bind_eq_ok, pure_eq_ok] at hdestination
    obtain ⟨session, hchecked, rfl⟩ := hdestination
    refine Or.inr ⟨session, rfl, ?_⟩
    simp only [checkEndpoints, bind_eq_ok, orRaise_eq_ok, require_eq_ok, pure_eq_ok] at hchecked
    obtain ⟨found, hfound, hchecked⟩ := hchecked
    have hsame : found = session := by
      obtain ⟨-, -, -, -, -, -, -, -, -, -, -, -, -, -, -, -, -, -, hsession⟩ := hchecked
      exact hsession
    obtain ⟨endpointId, hendpoint, hget⟩ := Option.bind_eq_some_iff.mp hfound
    rw [hendpoint, ← hsame]
    exact congrArg some (Table.key_of_get hget).symm

/-- The row of a checked disposition changes as the disposition says. -/
theorem disposed_of_checkItem {item : RepairItem} {destination : Option RelaySession}
    (hvalid : manifest.validate = .ok ())
    (hdestination : repairDestination manifest now store = .ok destination)
    (hitem : item ∈ manifest.dispositions)
    (hcheck : checkItem host manifest evidence now store item = .ok ()) :
    ∃ delivery, store.deliveries.get item.deliveryId = some delivery ∧
      Disposed manifest now item delivery (applyDisposition manifest destination delivery) := by
  obtain ⟨hnodup, hsuppression⟩ := validate_eq_ok hvalid
  have hstored : ∃ delivery, store.deliveries.get item.deliveryId = some delivery := by
    simp only [checkItem, bind_eq_ok, orRaise_eq_ok] at hcheck
    obtain ⟨row, hrow, -⟩ := hcheck
    exact ⟨row.1, (RelayStore.deliveryWithMessage_eq_some.mp hrow).1⟩
  obtain ⟨delivery, hget⟩ := hstored
  refine ⟨delivery, hget, ?_⟩
  have hopen := checkItem_eq_ok hcheck hget
  have hid : delivery.id = item.deliveryId := Table.key_of_get hget
  have hfind : (manifest.dispositions.find? fun other => other.deliveryId == delivery.id) =
      some item := by
    cases hfound : manifest.dispositions.find? fun other => other.deliveryId == delivery.id with
    | none =>
      have hmiss := List.find?_eq_none.mp hfound item hitem
      rw [hid] at hmiss
      exact absurd (beq_self_eq_true _) hmiss
    | some other =>
      have hother : other.deliveryId = item.deliveryId := by
        have hmatch := List.find?_some hfound
        rw [← hid]
        exact beq_iff_eq.mp hmatch
      rw [List.inj_on_of_nodup_map hnodup (List.mem_of_find?_eq_some hfound) hitem hother]
  simp only [applyDisposition, hfind]
  cases hdisposition : item.disposition with
  | suppress =>
    rcases hopen with hpending | ⟨hversion, hrunOut, -⟩
    · have hkeep : (manifest.schemaVersion == 2 && delivery.state == .claimed) = false := by
        rw [hpending]
        exact Bool.and_false _
      simp only [hkeep, RelayDelivery.suppress, Bool.false_eq_true, if_false]
      exact .suppressed hdisposition hpending
    · have hclear : (manifest.schemaVersion == 2 && delivery.state == .claimed) = true := by
        simp only [claimRunOut, Bool.and_eq_true] at hrunOut
        rw [hversion, hrunOut.1]
        rfl
      simp only [hclear, RelayDelivery.suppress, if_true]
      exact .released hdisposition hversion hrunOut
  | adopt =>
    have hpending : delivery.state = .pending := by
      rcases hopen with hpending | ⟨-, -, hsuppress⟩
      · exact hpending
      · rw [hdisposition] at hsuppress
        cases hsuppress
    rcases repairDestination_eq_ok hdestination with ⟨hversion, -⟩ | ⟨session, rfl, hendpoint⟩
    · have hsuppress := hsuppression hversion item hitem
      rw [hdisposition] at hsuppress
      cases hsuppress
    · exact .adopted hdisposition hendpoint hpending

theorem relayEndpointRepairApply_outcome (manifest : RepairManifest) (evidence : RepairEvidence) :
    RepairOutcome host manifest now store
      (relayEndpointRepairApply host manifest evidence now store) := by
  unfold relayEndpointRepairApply
  rcases transaction_cases (relayEndpointRepairBody host manifest evidence now) store with
    ⟨after, result, hbody, htransaction⟩ | ⟨error, -, htransaction⟩
  · rw [htransaction]
    simp only [relayEndpointRepairBody, bind_eq_ok] at hbody
    obtain ⟨valid, hvalid, hbody⟩ := hbody
    split at hbody
    · next entry hentry =>
        simp only [bind_eq_ok, require_eq_ok, pure_eq_ok, Prod.mk.injEq] at hbody
        obtain ⟨-, ⟨hmanifest, hresult⟩, rfl, rfl⟩ := hbody
        exact .replayed hentry hmanifest hresult
    · next hfree =>
        simp only [bind_eq_ok, orRaise_eq_ok, require_eq_ok, pure_eq_ok, forM_eq_ok,
          Prod.mk.injEq] at hbody
        obtain ⟨-, hledger, -, -, destination, hdestination, -, hchecks, repairs, hrepairs, rfl,
          rfl⟩ := hbody
        have hget := Table.get_updateAll store.deliveries
          (id_applyDisposition manifest destination)
        refine .applied
          { free := hfree
            once := (validate_eq_ok hvalid).1
            disjoint := fun digest entry hentry deliveryId hdelivery hagain => ?_
            recorded := fun digest => Table.get_insertNew hrepairs digest
            disposed := fun item hitem => ?_
            untouched := fun deliveryId hother => ?_
            others := rfl }
        · have hchecked := hledger entry (Table.mem_of_get hentry)
          simp only [checkLedger, bind_eq_ok, require_eq_ok] at hchecked
          obtain ⟨-, -, hdisjoint⟩ := hchecked
          have hmiss := List.all_eq_true.mp hdisjoint deliveryId hdelivery
          rw [List.contains_iff_mem.mpr hagain] at hmiss
          cases hmiss
        · obtain ⟨delivery, hrow, hdisposed⟩ :=
            disposed_of_checkItem hvalid hdestination hitem (hchecks item hitem)
          refine ⟨delivery, _, hrow, ?_, hdisposed⟩
          have hchanged := hget item.deliveryId
          rw [hrow, Option.map_some] at hchanged
          exact hchanged
        · refine (hget deliveryId).trans ?_
          cases hrow : store.deliveries.get deliveryId with
          | none => rfl
          | some delivery =>
            have hid : delivery.id = deliveryId := Table.key_of_get hrow
            have hnone : (manifest.dispositions.find? fun item =>
                item.deliveryId == delivery.id) = none := by
              apply List.find?_eq_none.mpr
              intro item hitem hsame
              apply hother
              rw [← hid, ← beq_iff_eq.mp hsame]
              exact List.mem_map_of_mem hitem
            simp only [Option.map_some, applyDisposition, hnone]
  · rw [htransaction]
    exact .refused error

end Outcome

section Kept

/-- The operation leaves the repair ledger. -/
def SameRepairs (before after : RelayStore) : Prop := after.repairs = before.repairs

theorem SameRepairs.refl (store : RelayStore) : SameRepairs store store := rfl

theorem SameRepairs.trans {before middle after : RelayStore} (hfirst : SameRepairs before middle)
    (hsecond : SameRepairs middle after) : SameRepairs before after :=
  Eq.trans hsecond hfirst

theorem SessionWritten.repairs (hwritten : SessionWritten store after) : SameRepairs store after := by
  cases hwritten <;> rfl

section Turns

variable {request : TurnRequest} {clock : ClaimClock}

theorem turnInScope_repairs {wake : Option OpenCodeWake} {response : TurnResponse}
    (hturn : turnInScope host request clock now wake store = .ok (after, response)) :
    SameRepairs store after := by
  refine turnInScope_related SameRepairs.trans (fun hscope => ?_) (fun hadmitted => ?_)
    (fun hclaims => ?_) hturn
  · exact resolveScope_cases hscope (SameRepairs.refl store) fun _ _ => rfl
  · exact admitSession_cases hadmitted (SameRepairs.refl _) (fun _ _ _ _ => rfl) fun _ _ _ => rfl
  · rw [SameRepairs, claimEligible_writes hclaims]

theorem relayTurn_repairs : SameRepairs store (relayTurn host request clock now store).1 := by
  have hcontexts : ∀ {native after wake replay},
      openCodeContext host request native now store = .ok (after, wake, replay) →
        SameRepairs store after := fun hcontext =>
    openCodeContext_cases hcontext (SameRepairs.refl store) fun _ _ _ => rfl
  exact relayTurn_cases (SameRepairs.refl store) turnInScope_repairs (fun _ => hcontexts)
    fun _ hcontext hturn => (hcontexts hcontext).trans (turnInScope_repairs hturn)

end Turns

theorem RelayOp.step_repairs (op : RelayOp) {digest : String} {entry : EndpointRepair}
    (hentry : store.repairs.get digest = some entry) :
    (op.step host store).repairs.get digest = some entry := by
  have hkeeps : ∀ {after}, SameRepairs store after → after.repairs.get digest = some entry := by
    intro after hsame
    rw [hsame, hentry]
  cases op with
  | turn request clock now => exact hkeeps relayTurn_repairs
  | openCodeContext request maxChars now => exact hkeeps relayTurn_repairs
  | openCodeWake | closeSession | nameSession | markActive | markUnreachable =>
    exact hkeeps (RelayOp.step_written (by trivial)).repairs
  | repairApply manifest evidence now =>
    have houtcome := @relayEndpointRepairApply_outcome host now store manifest evidence
    change (relayEndpointRepairApply host manifest evidence now store).1.repairs.get digest =
      some entry
    generalize relayEndpointRepairApply host manifest evidence now store = outcome at houtcome
    cases houtcome with
    | refused => exact hentry
    | replayed => exact hentry
    | applied happlied =>
      rw [happlied.recorded, if_neg, hentry]
      rintro rfl
      rw [happlied.free] at hentry
      cases hentry
  | _ => exact hkeeps (RelayOp.step_mailed (by trivial)).repairs

theorem repairs_run (ops : List RelayOp) {digest : String} {entry : EndpointRepair}
    (hentry : store.repairs.get digest = some entry) :
    (run (RelayOp.step host) store ops).repairs.get digest = some entry :=
  run_related (fun first second : RelayStore => first.repairs.get digest = some entry →
      second.repairs.get digest = some entry)
    (fun _ hfound => hfound)
    (fun _ _ _ hfirst hsecond hfound => hsecond (hfirst hfound))
    (fun _ op hfound => op.step_repairs hfound) store ops hentry

end Kept

section Runs

variable {manifest : RepairManifest}

theorem Applied.entry_run (happlied : Applied host manifest now store after)
    (later : List RelayOp) :
    (run (RelayOp.step host) after later).repairs.get (host.manifestDigest manifest) =
      some (ledgerEntry host manifest now) := by
  apply repairs_run
  rw [happlied.recorded, if_pos rfl]

theorem Applied.valid {evidence : RepairEvidence} {result : RepairResult}
    (hresult : relayEndpointRepairApply host manifest evidence now store = (after, .ok result)) :
    manifest.validate = .ok () := by
  rcases transaction_cases (relayEndpointRepairBody host manifest evidence now) store with
    ⟨committed, found, hbody, -⟩ | ⟨error, -, htransaction⟩
  · simp only [relayEndpointRepairBody, bind_eq_ok] at hbody
    obtain ⟨valid, hvalid, -⟩ := hbody
    exact hvalid
  · rw [relayEndpointRepairApply, htransaction] at hresult
    cases (Prod.mk.inj hresult).2

theorem replay_of_entry (evidence : RepairEvidence) {recordedAt : ℤ}
    (hvalid : manifest.validate = .ok ())
    (hentry : store.repairs.get (host.manifestDigest manifest) =
      some (ledgerEntry host manifest recordedAt)) :
    relayEndpointRepairApply host manifest evidence now store =
      (store, .ok (expectedResult host manifest)) := by
  apply transaction_of_ok
  have hmatches : require ((ledgerEntry host manifest recordedAt).manifest = manifest ∧
      (ledgerEntry host manifest recordedAt).result = expectedResult host manifest)
      ledgerCorrupt = .ok () := require_eq_ok.mpr ⟨rfl, rfl⟩
  rw [relayEndpointRepairBody, hvalid]
  simp only [hentry]
  change (require _ ledgerCorrupt >>= fun _ => _) = _
  rw [hmatches]
  rfl

/-- Endpoint repair from any store.  A repair is refused and changes nothing, is
answered from its ledger entry and changes nothing, or applies every disposition
and records them.  After it was applied, whatever runs in between, replaying its
manifest returns the same result and changes nothing, and no other repair that
is applied touches its deliveries. -/
theorem endpoint_repair (host : Host) (manifest : RepairManifest) (evidence : RepairEvidence)
    (now : ℤ) (store : RelayStore) :
    RepairOutcome host manifest now store
        (relayEndpointRepairApply host manifest evidence now store) ∧
      ∀ after result,
        relayEndpointRepairApply host manifest evidence now store = (after, .ok result) →
        Applied host manifest now store after →
        ∀ later : List RelayOp,
          (∀ laterEvidence laterNow,
            relayEndpointRepairApply host manifest laterEvidence laterNow
                (run (RelayOp.step host) after later) =
              (run (RelayOp.step host) after later, .ok result)) ∧
          ∀ other otherNow final,
            Applied host other otherNow (run (RelayOp.step host) after later) final →
              ∀ deliveryId ∈ manifest.deliveryIds, deliveryId ∉ other.deliveryIds := by
  refine ⟨relayEndpointRepairApply_outcome manifest evidence,
    fun after result hresult happlied later => ⟨fun laterEvidence laterNow => ?_, ?_⟩⟩
  · have hsame : result = expectedResult host manifest := by
      have houtcome := @relayEndpointRepairApply_outcome host now store manifest evidence
      rw [hresult] at houtcome
      cases houtcome with
      | replayed _ _ hrecorded => exact hrecorded
      | applied => rfl
    rw [hsame]
    exact replay_of_entry laterEvidence (Applied.valid hresult) (happlied.entry_run later)
  · intro other otherNow final hother deliveryId hdelivery
    exact hother.disjoint _ _ (happlied.entry_run later) deliveryId hdelivery

end Runs

end Pallium.Relay
