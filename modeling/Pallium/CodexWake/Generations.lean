import Pallium.CodexWake.Transitions

/-!
# Generations of wake fences

The database as the wake registry and the Relay service drive it: transitions of
the authority with the values that the registry lets through, its one
initialization, and the operations of the Relay store between them.  A restart of
the process changes nothing of it.  The marker never decreases, every granted
generation lies above all earlier ones, and a generation is begun at most once.
-/

namespace Pallium.CodexWake

open Pallium.Relay Pallium.Run Pallium.Transaction

structure Database where
  relay : RelayStore
  authority : WakeAuthority
  deriving DecidableEq

def Database.empty : Database := ⟨RelayStore.empty, WakeAuthority.empty⟩

section Admission

variable (printable : Char → Bool)

/-- The values that the methods of `CodexWakeRegistry` pass on. -/
def WakeRequest.admitted : WakeRequest → Bool
  | .reserve endpointId deliveryId sessionRef containerRef _ =>
    validScope printable endpointId deliveryId sessionRef containerRef
  | .correlate endpointId deliveryId sessionRef containerRef attempts expectedGeneration =>
    validScope printable endpointId deliveryId sessionRef containerRef &&
      decide (1 ≤ attempts ∧ attempts < integerLimit) &&
      decide (1 ≤ expectedGeneration ∧ expectedGeneration < integerLimit)
  | .releaseDelivery _ => true
  | .release _ => true
  | .retryTarget _ _ => true
  | .outcome _ result => result == .accepted || result == .uncertain
  | .beginNativeAttempt _ _ _ => true
  | .retry expected target _ =>
    validScope printable expected.recipientEndpointId expected.deliveryId target.sessionRef
      target.containerRef
  | .reconcile _ _ => true
  | .replace expected sessionRef containerRef =>
    validScope printable expected.recipientEndpointId expected.deliveryId sessionRef containerRef

/-- What `_load` accepts of the fences in a file. -/
def loadable (reservations : List CodexWakeReservation) : Bool :=
  decide (reservations.length ≤ maxReservations) &&
    reservations.all fun item =>
      item.valid printable && item.outcome != .prepared && item.retryNotBefore.isNone

end Admission

inductive WakeOp
  | relay (op : RelayOp)
  | initialization (reservations : List CodexWakeReservation)
  | transition (request : WakeRequest)

section Steps

variable (host : Host) (printable : Char → Bool)

/-- The authority after a request to the registry and what the request returns. -/
def respond (database : Database) (request : WakeRequest) : WakeAuthority × Option WakeAnswer :=
  if request.admitted printable then
    match relayCodexWakeTransition printable database.relay request database.authority with
    | (after, .ok answer) => (after, answer)
    | (after, .error _) => (after, none)
  else (database.authority, none)

def Database.step (database : Database) : WakeOp → Database
  | .relay op => { database with relay := op.step host database.relay }
  | .initialization reservations =>
    if loadable printable reservations then
      { database with
        authority :=
          (relayCodexWakeInitialize database.relay reservations database.authority).1 }
    else database
  | .transition request => { database with authority := (respond printable database request).1 }

def reached (ops : List WakeOp) : Database := run (Database.step host printable) Database.empty ops

/-- The fence to which a request gives a new generation. -/
def grantedFence : WakeRequest → WakeAnswer → Option CodexWakeReservation
  | .reserve _ _ _ _ _, .fence item => some item
  | .retry _ _ _, .fence item => some item
  | .replace _ _ _, .fence item => some item
  | .reconcile _ _, .reconciled .replaced item => some item
  | _, _ => none

/-- The fence whose native attempt a request begins. -/
def begunFence : WakeRequest → WakeAnswer → Option CodexWakeReservation
  | .beginNativeAttempt _ _ _, .fence item => some item
  | _, _ => none

def granted (database : Database) : WakeOp → Option CodexWakeReservation
  | .transition request => (respond printable database request).2.bind (grantedFence request)
  | _ => none

/-- The generation under which the step begins a native attempt. -/
def begunGeneration (database : Database) : WakeOp → Option ℤ
  | .transition request =>
    ((respond printable database request).2.bind (begunFence request)).map
      CodexWakeReservation.generation
  | _ => none

/-- The generations under which a run has begun native attempts. -/
def begunGenerations (ops : List WakeOp) : List ℤ :=
  observations (Database.step host printable) (begunGeneration printable) Database.empty ops

end Steps

/-- The marker has not decreased. -/
def Advances (before after : WakeAuthority) : Prop :=
  ∀ marker, before.marker = some marker → ∃ next, after.marker = some next ∧ marker ≤ next

theorem Advances.refl (authority : WakeAuthority) : Advances authority authority :=
  fun marker hmarker => ⟨marker, hmarker, Int.le_refl marker⟩

theorem Advances.trans {first second third : WakeAuthority} (hfirst : Advances first second)
    (hsecond : Advances second third) : Advances first third := by
  intro marker hmarker
  obtain ⟨middle, hmiddle, hle⟩ := hfirst marker hmarker
  obtain ⟨last, hlast, hle'⟩ := hsecond middle hmiddle
  exact ⟨last, hlast, Int.le_trans hle hle'⟩

theorem Advances.of_eq {before after : WakeAuthority} (hmarker : after.marker = before.marker) :
    Advances before after := fun marker hbefore => ⟨marker, hmarker.trans hbefore, Int.le_refl _⟩

/-- What a transition does to the fences. -/
inductive FenceChange (marker : ℤ) (authority : WakeAuthority) : WakeAuthority → Prop
  | same : FenceChange marker authority authority
  | granted (item : CodexWakeReservation) (hgeneration : item.generation = marker + 1)
      (hslot : (authority.reservations.get item.recipientEndpointId = none ∧
          authority.reservations.rows.length < maxReservations ∧
          ∀ other ∈ authority.reservations.rows, other.deliveryId ≠ item.deliveryId) ∨
        ∃ old, authority.reservations.get item.recipientEndpointId = some old ∧
          old.deliveryId = item.deliveryId) :
      FenceChange marker authority (authority.grant marker item)
  | rewritten (old new : CodexWakeReservation)
      (hget : authority.reservations.get new.recipientEndpointId = some old)
      (hdelivery : new.deliveryId = old.deliveryId) (hgeneration : new.generation = old.generation)
      (hprepared : new.outcome = .prepared → old.outcome = .prepared) :
      FenceChange marker authority (authority.write new)
  | erased (doomed : CodexWakeReservation → Bool) :
      FenceChange marker authority
        { authority with reservations := authority.reservations.eraseAll doomed }

theorem delete_eq_eraseAll (authority : WakeAuthority) (item : CodexWakeReservation) :
    authority.delete item = { authority with
      reservations := authority.reservations.eraseAll fun other =>
        decide (key other = item.recipientEndpointId) } := rfl

theorem FenceChange.delete {marker : ℤ} {authority : WakeAuthority}
    (item : CodexWakeReservation) : FenceChange marker authority (authority.delete item) := by
  rw [delete_eq_eraseAll]
  exact .erased _

section Requests

variable {store : RelayStore} {printable : Char → Bool} {marker : ℤ}
  {authority after : WakeAuthority} {answer : Option WakeAnswer}

variable {request : WakeRequest}

theorem FenceChange.rearm {expected : CodexWakeReservation}
    (hget : authority.reservations.get expected.recipientEndpointId = some expected)
    (target : WakeTarget) (outcome : WakeOutcome) (retryNotBefore : Option ℤ) :
    FenceChange marker authority
      (authority.grant marker (expected.rearm marker target outcome retryNotBefore)) :=
  .granted _ rfl (Or.inr ⟨expected, hget, rfl⟩)

theorem apply_fenceChange (hadmitted : request.admitted printable)
    (happly : request.apply store marker authority = .ok (after, answer)) :
    FenceChange marker authority after := by
  cases request with
  | reserve endpointId deliveryId sessionRef containerRef now =>
    rcases reserve_cases happly with ⟨rfl, -⟩ | ⟨hreservable, rfl, -⟩
    · exact .same
    · exact .granted _ rfl
        (Or.inl ⟨hreservable.endpoint, hreservable.capacity, hreservable.delivery⟩)
  | correlate endpointId deliveryId sessionRef containerRef attempts expectedGeneration =>
    rcases correlate_cases happly with ⟨rfl, -⟩ | ⟨row, hget, -, -, -, rfl, -⟩
    · exact .same
    · have hendpoint : row.recipientEndpointId = endpointId := Table.key_of_get hget
      exact .rewritten row _ (hendpoint ▸ hget) rfl rfl id
  | releaseDelivery deliveryId =>
    rcases releaseDelivery_cases happly with ⟨rfl, -⟩ | ⟨item, -, -, rfl, -⟩
    · exact .same
    · exact .delete item
  | release reservations =>
    obtain ⟨removed, rfl, -, -⟩ := release_eq_ok happly
    exact .erased _
  | retryTarget expected now =>
    rcases retryTarget_cases happly with ⟨rfl, -⟩ | ⟨rfl, -⟩
    · exact .same
    · exact .same
  | outcome expected result =>
    rcases recordOutcome_cases happly with ⟨rfl, -⟩ | ⟨row, hget, rfl, -⟩
    · exact .same
    · have hendpoint : row.recipientEndpointId = expected.recipientEndpointId :=
        Table.key_of_get hget
      refine .rewritten row _ (hendpoint ▸ hget) rfl rfl fun hprepared => ?_
      have hresult : result = .prepared := hprepared
      simp [WakeRequest.admitted, hresult] at hadmitted
  | beginNativeAttempt expected now later =>
    rcases beginNativeAttempt_cases happly with ⟨rfl, -⟩ | ⟨hstartable, rfl, -⟩
    · exact .same
    · exact .rewritten expected _ hstartable.current rfl rfl fun hprepared => nomatch hprepared
  | retry expected target now =>
    rcases retry_cases happly with ⟨rfl, -⟩ | ⟨hretriable, rfl, -⟩
    · exact .same
    · exact .rearm hretriable.current _ _ _
  | reconcile expected now =>
    rcases reconcile_cases happly with ⟨rfl, -⟩ | ⟨hget, found, -, hfound⟩
    · exact .same
    · cases hfound with
      | missing hmissing => exact .delete expected
      | terminal hstate hterminal => exact .delete expected
      | replaced hstate hclaim htarget hroom => exact .rearm hget _ _ _
      | resume hstate hprepared huncorrelated hpending htarget => exact .same
      | clamped hstate hspent huncorrelated hoverdue hpending =>
        exact .rewritten expected _ hget rfl rfl id
      | retry hstate hretryable hpending => exact .same
  | replace expected sessionRef containerRef =>
    rcases replace_cases happly with ⟨rfl, -⟩ | ⟨hget, -, rfl, -⟩
    · exact .same
    · exact .rearm hget _ _ _

variable {found : WakeAnswer} {item : CodexWakeReservation}
  (happly : request.apply store marker authority = .ok (after, some found))
include happly

theorem apply_granted (hgranted : grantedFence request found = some item) :
    after = authority.grant marker item ∧ item.generation = marker + 1 := by
  cases request with
  | reserve endpointId deliveryId sessionRef containerRef now =>
    rcases reserve_cases happly with ⟨-, hnone⟩ | ⟨-, rfl, hanswer⟩
    · cases hnone
    · cases hanswer
      cases hgranted
      exact ⟨rfl, rfl⟩
  | retry expected target now =>
    rcases retry_cases happly with ⟨-, hnone⟩ | ⟨-, rfl, hanswer⟩
    · cases hnone
    · cases hanswer
      cases hgranted
      exact ⟨rfl, rfl⟩
  | replace expected sessionRef containerRef =>
    rcases replace_cases happly with ⟨-, hnone⟩ | ⟨-, -, rfl, hanswer⟩
    · cases hnone
    · cases hanswer
      cases hgranted
      exact ⟨rfl, rfl⟩
  | reconcile expected now =>
    rcases reconcile_cases happly with ⟨-, hnone⟩ | ⟨-, answered, hanswer, hfound⟩
    · cases hnone
    · cases hanswer
      cases hfound with
      | replaced hstate hclaim htarget hroom =>
        cases hgranted
        exact ⟨rfl, rfl⟩
      | _ => cases hgranted
  | _ => cases hgranted

/-- A begun fence was prepared and is not afterwards. -/
theorem apply_begun (hbegun : begunFence request found = some item) :
    ∃ old, authority.reservations.get old.recipientEndpointId = some old ∧
      old.outcome = .prepared ∧ item.generation = old.generation ∧
      item.recipientEndpointId = old.recipientEndpointId ∧ item.outcome ≠ .prepared ∧
      after = authority.write item := by
  cases request with
  | beginNativeAttempt expected now later =>
    rcases beginNativeAttempt_cases happly with ⟨-, hnone⟩ | ⟨hstartable, rfl, hanswer⟩
    · cases hnone
    · cases hanswer
      cases hbegun
      exact ⟨expected, hstartable.current, hstartable.prepared, rfl, rfl,
        (fun hprepared => nomatch hprepared), rfl⟩
  | _ => cases hbegun

end Requests

/-- A request to the registry is a committed transition, or changes and returns
nothing. -/
theorem respond_cases (printable : Char → Bool) (database : Database) (request : WakeRequest) :
    respond printable database request = (database.authority, none) ∨
      ∃ marker after answer, database.authority.marker = some marker ∧
        database.authority.accepted printable ∧ request.admitted printable ∧
        request.apply database.relay marker database.authority = .ok (after, answer) ∧
        respond printable database request = (after, answer) := by
  unfold respond
  split
  · next hadmitted =>
    rcases transaction_cases _ database.authority with ⟨after, answer, hbody, htransaction⟩ |
      ⟨error, -, htransaction⟩
    · rw [relayCodexWakeTransition, htransaction]
      obtain ⟨_, haccepted, hrest⟩ := bind_eq_ok.mp hbody
      cases hmarker : database.authority.marker with
      | none =>
        rw [hmarker] at hrest
        obtain ⟨rfl, rfl⟩ := refused_of_eq hrest
        exact Or.inl rfl
      | some marker =>
        rw [hmarker] at hrest
        exact Or.inr ⟨marker, after, answer, rfl, require_eq_ok.mp haccepted, hadmitted, hrest,
          rfl⟩
    · rw [relayCodexWakeTransition, htransaction]
      exact Or.inl rfl
  · exact Or.inl rfl

/-- What holds of the authority after a run that has begun the given generations. -/
structure Sound (begun : List ℤ) (authority : WakeAuthority) : Prop where
  bounded : ∀ item ∈ authority.reservations.rows,
    ∃ marker, authority.marker = some marker ∧ item.generation ≤ marker
  deliveries : ∀ item ∈ authority.reservations.rows, ∀ other ∈ authority.reservations.rows,
    other.deliveryId = item.deliveryId → other = item
  capacity : authority.reservations.rows.length ≤ maxReservations
  alone : ∀ item ∈ authority.reservations.rows, ∀ other ∈ authority.reservations.rows,
    item.outcome = .prepared → other.generation = item.generation → other = item
  spent : ∀ generation ∈ begun, ∃ marker, authority.marker = some marker ∧ generation ≤ marker ∧
    ∀ item ∈ authority.reservations.rows, item.generation = generation →
      item.outcome ≠ .prepared

theorem Sound.empty : Sound [] WakeAuthority.empty where
  bounded := fun _ hitem => nomatch hitem
  deliveries := fun _ hitem => nomatch hitem
  capacity := Nat.zero_le _
  alone := fun _ hitem => nomatch hitem
  spent := fun _ hgeneration => nomatch hgeneration

section Soundness

variable {marker : ℤ} {begun : List ℤ} {authority after : WakeAuthority}

variable {item old : CodexWakeReservation}

theorem mem_write {other : CodexWakeReservation} :
    other ∈ (authority.write item).reservations.rows ↔ other = item ∨
      other ∈ authority.reservations.rows ∧
        other.recipientEndpointId ≠ item.recipientEndpointId :=
  Table.mem_rows_set

theorem grant_eq (hgeneration : item.generation = marker + 1) :
    authority.grant marker item =
      { authority.write item with marker := some (marker + 1) } := by
  rw [WakeAuthority.grant, WakeAuthority.write, ← hgeneration]

variable (hsound : Sound begun authority)
include hsound

theorem Sound.other_delivery {other : CodexWakeReservation}
    {endpointId : String} (hget : authority.reservations.get endpointId = some old)
    (hother : other ∈ authority.reservations.rows) (hne : other.recipientEndpointId ≠ endpointId) :
    other.deliveryId ≠ old.deliveryId := by
  intro hdelivery
  obtain rfl := hsound.deliveries old (Table.mem_of_get hget) other hother hdelivery
  exact hne (Table.key_of_get hget)

theorem deliveries_write (hitem : ∀ other ∈ authority.reservations.rows,
      other.recipientEndpointId ≠ item.recipientEndpointId → other.deliveryId ≠ item.deliveryId) :
    ∀ first ∈ (authority.write item).reservations.rows,
      ∀ second ∈ (authority.write item).reservations.rows,
        second.deliveryId = first.deliveryId → second = first := by
  intro first hfirst second hsecond hdelivery
  rcases mem_write.mp hfirst with rfl | ⟨hfirstOld, hne⟩
  · rcases mem_write.mp hsecond with rfl | ⟨hsecondOld, hne'⟩
    · rfl
    · exact absurd hdelivery (hitem second hsecondOld hne')
  · rcases mem_write.mp hsecond with rfl | ⟨hsecondOld, -⟩
    · exact absurd hdelivery.symm (hitem first hfirstOld hne)
    · exact hsound.deliveries first hfirstOld second hsecondOld hdelivery

theorem Sound.granted (hmarker : authority.marker = some marker)
    (hgeneration : item.generation = marker + 1) (hdelivery : ∀ other ∈ authority.reservations.rows,
      other.recipientEndpointId ≠ item.recipientEndpointId → other.deliveryId ≠ item.deliveryId)
    (hcapacity : (authority.write item).reservations.rows.length ≤ maxReservations) :
    Sound begun (authority.grant marker item) := by
  have hold : ∀ other ∈ authority.reservations.rows, other.generation ≤ marker := by
    intro other hother
    obtain ⟨stored, hstored, hle⟩ := hsound.bounded other hother
    rw [hmarker] at hstored
    cases hstored
    exact hle
  rw [grant_eq hgeneration]
  refine ⟨?_, deliveries_write hsound hdelivery, hcapacity, ?_, ?_⟩
  · intro other hother
    refine ⟨marker + 1, rfl, ?_⟩
    rcases mem_write.mp hother with rfl | ⟨hother, -⟩
    · exact hgeneration.le
    · have := hold other hother
      omega
  · intro first hfirst second hsecond hprepared hsame
    rcases mem_write.mp hfirst with rfl | ⟨hfirstOld, -⟩
    · rcases mem_write.mp hsecond with rfl | ⟨hsecondOld, -⟩
      · rfl
      · have := hold second hsecondOld
        omega
    · rcases mem_write.mp hsecond with rfl | ⟨hsecondOld, -⟩
      · have := hold first hfirstOld
        omega
      · exact hsound.alone first hfirstOld second hsecondOld hprepared hsame
  · intro generation hbegun
    obtain ⟨stored, hstored, hle, hspent⟩ := hsound.spent generation hbegun
    rw [hmarker] at hstored
    cases hstored
    refine ⟨marker + 1, rfl, by omega, ?_⟩
    intro other hother hsame
    rcases mem_write.mp hother with rfl | ⟨hother, -⟩
    · omega
    · exact hspent other hother hsame

theorem Sound.rewritten {new : CodexWakeReservation}
    (hget : authority.reservations.get new.recipientEndpointId = some old)
    (hdelivery : new.deliveryId = old.deliveryId) (hgeneration : new.generation = old.generation)
    (hprepared : new.outcome = .prepared → old.outcome = .prepared) :
    Sound begun (authority.write new) := by
  have hold := Table.mem_of_get hget
  refine ⟨?_, deliveries_write hsound ?_, ?_, ?_, ?_⟩
  · intro other hother
    rcases mem_write.mp hother with rfl | ⟨hother, -⟩
    · rw [hgeneration]
      exact hsound.bounded old hold
    · exact hsound.bounded other hother
  · intro other hother hne
    rw [hdelivery]
    exact hsound.other_delivery hget hother hne
  · exact (Table.length_set_of_get hget).le.trans hsound.capacity
  · have hapart : ∀ other ∈ authority.reservations.rows, other.generation = old.generation →
        old.outcome = .prepared ∨ other.outcome = .prepared →
        other.recipientEndpointId = new.recipientEndpointId := by
      intro other hother hsame heither
      have heq : other = old := by
        rcases heither with holdPrepared | hotherPrepared
        · exact hsound.alone old hold other hother holdPrepared hsame
        · exact (hsound.alone other hother old hold hotherPrepared hsame.symm).symm
      rw [heq]
      exact Table.key_of_get hget
    intro first hfirst second hsecond hfirstPrepared hsame
    rcases mem_write.mp hfirst with rfl | ⟨hfirstOld, hne⟩
    · rcases mem_write.mp hsecond with rfl | ⟨hsecondOld, hne'⟩
      · rfl
      · exact absurd (hapart second hsecondOld (hsame.trans hgeneration)
          (Or.inl (hprepared hfirstPrepared))) hne'
    · rcases mem_write.mp hsecond with rfl | ⟨hsecondOld, -⟩
      · exact absurd (hapart first hfirstOld (hsame.symm.trans hgeneration)
          (Or.inr hfirstPrepared)) hne
      · exact hsound.alone first hfirstOld second hsecondOld hfirstPrepared hsame
  · intro generation hbegun
    obtain ⟨stored, hstored, hle, hspent⟩ := hsound.spent generation hbegun
    refine ⟨stored, hstored, hle, ?_⟩
    intro other hother hsame
    rcases mem_write.mp hother with rfl | ⟨hother, -⟩
    · exact fun hnew => hspent old hold (hgeneration.symm.trans hsame) (hprepared hnew)
    · exact hspent other hother hsame

theorem Sound.erased (doomed : CodexWakeReservation → Bool) :
    Sound begun
      { authority with reservations := authority.reservations.eraseAll doomed } := by
  have hkept : ∀ item ∈ (authority.reservations.eraseAll doomed).rows,
      item ∈ authority.reservations.rows := fun item hitem => List.mem_of_mem_filter hitem
  refine ⟨?_, ?_, ?_, ?_, ?_⟩
  · exact fun item hitem => hsound.bounded item (hkept item hitem)
  · exact fun item hitem other hother =>
      hsound.deliveries item (hkept item hitem) other (hkept other hother)
  · exact (List.length_filter_le _ _).trans hsound.capacity
  · exact fun item hitem other hother =>
      hsound.alone item (hkept item hitem) other (hkept other hother)
  · intro generation hbegun
    obtain ⟨stored, hstored, hle, hspent⟩ := hsound.spent generation hbegun
    exact ⟨stored, hstored, hle, fun item hitem => hspent item (hkept item hitem)⟩

theorem Sound.change (hmarker : authority.marker = some marker)
    (hchange : FenceChange marker authority after) : Sound begun after := by
  cases hchange with
  | same => exact hsound
  | granted item hgeneration hslot =>
    apply hsound.granted hmarker hgeneration
    · intro other hother hne
      rcases hslot with ⟨-, -, hfresh⟩ | ⟨old, hget, hdelivery⟩
      · exact hfresh other hother
      · rw [← hdelivery]
        exact hsound.other_delivery hget hother hne
    · rcases hslot with ⟨-, hcapacity, -⟩ | ⟨old, hget, -⟩
      · exact (Table.length_set_le _ _).trans hcapacity
      · exact (Table.length_set_of_get hget).le.trans hsound.capacity
  | rewritten old new hget hdelivery hgeneration hprepared =>
    exact hsound.rewritten hget hdelivery hgeneration hprepared
  | erased doomed => exact hsound.erased doomed

/-- The first attempt under a generation uses it up. -/
theorem Sound.begin (hget : authority.reservations.get old.recipientEndpointId = some old)
    (hold : old.outcome = .prepared) (hgeneration : item.generation = old.generation)
    (hendpoint : item.recipientEndpointId = old.recipientEndpointId)
    (hitem : item.outcome ≠ .prepared) (hafter : Sound begun (authority.write item)) :
    item.generation ∉ begun ∧ Sound (begun ++ [item.generation]) (authority.write item) := by
  have hmem := Table.mem_of_get hget
  constructor
  · intro hbegun
    obtain ⟨-, -, -, hspent⟩ := hsound.spent _ hbegun
    exact hspent old hmem hgeneration.symm hold
  · refine { hafter with spent := ?_ }
    intro generation hgenerations
    rcases List.mem_append.mp hgenerations with hbegun | hnew
    · exact hafter.spent generation hbegun
    · obtain rfl := List.mem_singleton.mp hnew
      obtain ⟨marker, hmarker, hle⟩ := hsound.bounded old hmem
      refine ⟨marker, hmarker, hgeneration.trans_le hle, ?_⟩
      intro other hother hsame
      rcases mem_write.mp hother with rfl | ⟨hother, hne⟩
      · exact hitem
      · have heq := hsound.alone old hmem other hother hold (hsame.trans hgeneration)
        exact absurd (heq ▸ hendpoint.symm) hne

end Soundness

section Initialization

variable {store : RelayStore} {reservations : List CodexWakeReservation}

theorem rows_foldlM_insertNew {table after : Table CodexWakeReservation}
    (hinsert : reservations.foldlM Table.insertNew table = some after) :
    after.rows = table.rows ++ reservations := by
  induction reservations generalizing table with
  | nil =>
    cases hinsert
    exact (List.append_nil _).symm
  | cons head tail ih =>
    rw [List.foldlM_cons] at hinsert
    obtain ⟨middle, hmiddle, htail⟩ := Option.bind_eq_some_iff.mp hinsert
    rw [ih htail, Table.rows_insertNew hmiddle, List.append_assoc, List.singleton_append]

theorem le_foldl_max (values : List ℤ) (start : ℤ) :
    start ≤ values.foldl max start ∧ ∀ value ∈ values, value ≤ values.foldl max start := by
  induction values generalizing start with
  | nil => exact ⟨Int.le_refl start, fun _ hvalue => nomatch hvalue⟩
  | cons head tail ih =>
    obtain ⟨hstart, htail⟩ := ih (max start head)
    refine ⟨(le_max_left start head).trans hstart, fun value hvalue => ?_⟩
    rcases List.mem_cons.mp hvalue with rfl | hrest
    · exact (le_max_right start value).trans hstart
    · exact htail value hrest

/-- An initialization changes nothing, or stores the given fences under a marker
that none of them exceeds. -/
theorem relayCodexWakeInitialize_cases (store : RelayStore)
    (reservations : List CodexWakeReservation) (authority : WakeAuthority) :
    (relayCodexWakeInitialize store reservations authority).1 = authority ∨
      authority.marker = none ∧ highWater store reservations < integerLimit - 1 ∧
        ∃ rows : Table CodexWakeReservation, rows.rows = reservations ∧
          (reservations.map CodexWakeReservation.deliveryId).Nodup ∧
          (relayCodexWakeInitialize store reservations authority).1 =
            ⟨some (highWater store reservations), rows⟩ := by
  rw [relayCodexWakeInitialize]
  rcases transaction_cases _ authority with ⟨after, result, hbody, htransaction⟩ |
    ⟨error, -, htransaction⟩
  · rw [htransaction]
    split at hbody
    · cases hbody
      exact Or.inl rfl
    · next hmarker =>
      split at hbody
      · cases hbody
        exact Or.inl rfl
      · split at hbody
        · cases hbody
          exact Or.inl rfl
        · next hroom =>
          obtain ⟨rows, hrows, hafter⟩ := bind_eq_ok.mp hbody
          cases hafter
          have hinsert := orRaise_eq_ok.mp hrows
          rw [insertReservations] at hinsert
          split at hinsert
          · next hdistinct =>
            refine Or.inr ⟨?_, not_le.mp hroom, rows, ?_, hdistinct, rfl⟩
            · simpa using hmarker
            · exact rows_foldlM_insertNew hinsert
          · cases hinsert
  · rw [htransaction]
    exact Or.inl rfl

theorem generation_le_highWater {item : CodexWakeReservation} (hitem : item ∈ reservations) :
    item.generation ≤ highWater store reservations := by
  apply (le_foldl_max _ 0).2
  exact List.mem_append_right _ (List.mem_map_of_mem hitem)

theorem Sound.initialized {begun : List ℤ} {authority : WakeAuthority}
    {printable : Char → Bool} (hsound : Sound begun authority)
    (hloadable : loadable printable reservations) :
    Sound begun (relayCodexWakeInitialize store reservations authority).1 := by
  rcases relayCodexWakeInitialize_cases store reservations authority
    with hsame | ⟨hmarker, -, rows, rfl, hdistinct, hafter⟩
  · rw [hsame]
    exact hsound
  · rw [hafter]
    simp only [loadable, Bool.and_eq_true, decide_eq_true_eq, List.all_eq_true, bne_iff_ne,
      ne_eq] at hloadable
    refine ⟨fun item hitem => ⟨_, rfl, generation_le_highWater hitem⟩, ?_, hloadable.1, ?_, ?_⟩
    · intro item hitem other hother hdelivery
      exact List.inj_on_of_nodup_map hdistinct hother hitem hdelivery
    · intro item hitem other hother hprepared
      exact absurd hprepared (hloadable.2 item hitem).1.2
    · intro generation hbegun
      obtain ⟨marker, hsome, -⟩ := hsound.spent generation hbegun
      rw [hmarker] at hsome
      cases hsome

end Initialization

section Runs

variable (host : Host) (printable : Char → Bool)

theorem Sound.step {begun : List ℤ} {database : Database}
    (hsound : Sound begun database.authority) (op : WakeOp) :
    (∀ generation, begunGeneration printable database op = some generation →
        generation ∉ begun) ∧
      Sound (begun ++ (begunGeneration printable database op).toList)
        (database.step host printable op).authority := by
  cases op with
  | relay op => exact ⟨(fun _ hbegun => nomatch hbegun), (List.append_nil begun).symm ▸ hsound⟩
  | initialization reservations =>
    refine ⟨(fun _ hbegun => nomatch hbegun), (List.append_nil begun).symm ▸ ?_⟩
    rw [Database.step]
    split
    · next hloadable => exact hsound.initialized hloadable
    · exact hsound
  | transition request =>
    simp only [Database.step, begunGeneration]
    rcases respond_cases printable database request with hsame |
      ⟨marker, after, answer, hmarker, -, hadmitted, happly, hrespond⟩
    · rw [hsame]
      exact ⟨(fun _ hbegun => nomatch hbegun), (List.append_nil begun).symm ▸ hsound⟩
    · rw [hrespond]
      have hafter := hsound.change hmarker (apply_fenceChange hadmitted happly)
      cases hbegun : answer.bind (begunFence request) with
      | none => exact ⟨(fun _ hnone => nomatch hnone), (List.append_nil begun).symm ▸ hafter⟩
      | some item =>
        obtain ⟨found, rfl, hfound⟩ := Option.bind_eq_some_iff.mp hbegun
        obtain ⟨old, hget, hold, hgeneration, hendpoint, hitem, rfl⟩ :=
          apply_begun happly hfound
        obtain ⟨hnew, hsound'⟩ :=
          hsound.begin hget hold hgeneration hendpoint hitem hafter
        refine ⟨fun generation hsome => ?_, hsound'⟩
        cases hsome
        exact hnew

theorem step_advances (database : Database) (op : WakeOp) :
    Advances database.authority (database.step host printable op).authority := by
  cases op with
  | relay op => exact Advances.refl _
  | initialization reservations =>
    rw [Database.step]
    split
    · rcases relayCodexWakeInitialize_cases database.relay reservations database.authority
        with hsame | ⟨hmarker, -⟩
      · exact Advances.of_eq (congrArg WakeAuthority.marker hsame)
      · intro marker hsome
        rw [hmarker] at hsome
        cases hsome
    · exact Advances.refl _
  | transition request =>
    simp only [Database.step]
    rcases respond_cases printable database request with hsame |
      ⟨marker, after, answer, hmarker, -, hadmitted, happly, hrespond⟩
    · rw [hsame]
      exact Advances.refl _
    · rw [hrespond]
      cases apply_fenceChange hadmitted happly with
      | same => exact Advances.refl _
      | granted item hgeneration hslot =>
        intro stored hstored
        rw [hmarker] at hstored
        cases hstored
        exact ⟨marker + 1, rfl, by omega⟩
      | rewritten old new hget hdelivery hgeneration hprepared => exact Advances.of_eq rfl
      | erased doomed => exact Advances.of_eq rfl

theorem run_advances (database : Database) (ops : List WakeOp) :
    Advances database.authority (run (Database.step host printable) database ops).authority :=
  run_related (fun before after => Advances before.authority after.authority)
    (fun _ => Advances.refl _) (fun _ _ _ => Advances.trans) (step_advances host printable)
    database ops

theorem reached_sound (ops : List WakeOp) :
    (begunGenerations host printable ops).Nodup ∧
      Sound (begunGenerations host printable ops) (reached host printable ops).authority :=
  observations_nodup (fun begun (database : Database) => Sound begun database.authority)
    Sound.empty
    (fun _ _ op generation hsound hbegun => (hsound.step host printable op).1 generation hbegun)
    (fun _ _ op hsound => (hsound.step host printable op).2) ops

theorem granted_eq {database : Database} {op : WakeOp} {item : CodexWakeReservation}
    (hgranted : granted printable database op = some item) :
    ∃ marker, database.authority.marker = some marker ∧ item.generation = marker + 1 ∧
      (database.step host printable op).authority = database.authority.grant marker item := by
  cases op with
  | relay op => cases hgranted
  | initialization reservations => cases hgranted
  | transition request =>
    rw [granted] at hgranted
    obtain ⟨found, hanswer, hfound⟩ := Option.bind_eq_some_iff.mp hgranted
    rcases respond_cases printable database request with hsame |
      ⟨marker, after, answer, hmarker, -, hadmitted, happly, hrespond⟩
    · rw [hsame] at hanswer
      cases hanswer
    · rw [hrespond] at hanswer
      obtain rfl : answer = some found := hanswer
      obtain ⟨rfl, hgeneration⟩ := apply_granted happly hfound
      refine ⟨marker, hmarker, hgeneration, ?_⟩
      rw [Database.step, hrespond]

/-- After every run the marker is at least what it was before any part of the run;
a step that reserves, retries, replaces or re-arms a fence stores it under a
generation above those of all fences stored at any earlier moment; no two stored
fences share their endpoint or their delivery, and there are at most
`MAX_RESERVATIONS`; and no generation is begun twice. -/
theorem wake_generations (ops : List WakeOp) :
    (∀ earlier later, earlier ++ later = ops →
      Advances (reached host printable earlier).authority (reached host printable ops).authority ∧
        ∀ op item, granted printable (reached host printable ops) op = some item →
          (reached host printable (ops ++ [op])).authority.reservations.get
              item.recipientEndpointId = some item ∧
            ∀ used ∈ (reached host printable earlier).authority.reservations.rows,
              used.generation < item.generation) ∧
      ((reached host printable ops).authority.reservations.rows.map
        CodexWakeReservation.recipientEndpointId).Nodup ∧
      ((reached host printable ops).authority.reservations.rows.map
        CodexWakeReservation.deliveryId).Nodup ∧
      (reached host printable ops).authority.reservations.rows.length ≤ maxReservations ∧
      (begunGenerations host printable ops).Nodup := by
  obtain ⟨hbegun, hsound⟩ := reached_sound host printable ops
  refine ⟨?_, Table.nodup _, ?_, hsound.capacity, hbegun⟩
  · rintro earlier later rfl
    have hadvances : Advances (reached host printable earlier).authority
        (reached host printable (earlier ++ later)).authority := by
      rw [reached, reached, run_append]
      exact run_advances host printable _ later
    refine ⟨hadvances, fun op item hgranted => ?_⟩
    obtain ⟨marker, hmarker, hgeneration, hafter⟩ := granted_eq host printable hgranted
    have hstep : reached host printable (earlier ++ later ++ [op]) =
        (reached host printable (earlier ++ later)).step host printable op :=
      run_append _ _ _ _
    constructor
    · rw [hstep, hafter, grant_eq hgeneration]
      exact (get_write item _).trans (if_pos rfl)
    · intro used hused
      obtain ⟨past, hpast, hle⟩ := (reached_sound host printable earlier).2.bounded used hused
      obtain ⟨next, hnext, hle'⟩ := hadvances past hpast
      rw [hmarker] at hnext
      cases hnext
      omega
  · apply List.Nodup.map_on
    · intro item hitem other hother hdelivery
      exact hsound.deliveries other hother item hitem hdelivery
    · exact List.Nodup.of_map _ (Table.nodup _)

end Runs

end Pallium.CodexWake
