import Pallium.ClaudeWake.Effects

/-!
# What a fresh registry reads back

The loader refuses a capability file with an attempt in flight without a
delivery, or with two attempts in flight for one delivery or one endpoint.  As
long as every kept attempt has a delivery of its own, the file on disk gives a
fresh registry exactly the registrations in memory.
-/

namespace Pallium.ClaudeWake

open Pallium.Faults Pallium.Run
open Pallium.Faults.Process (Ensures)
open Pallium.Faults.Process.Ensures (bind read pure)

/-- The registration can be loaded: an attempt in flight has a valid delivery
and a valid endpoint or none. -/
def Registration.Loadable (registration : Registration) : Prop :=
  registration.inflight = true →
    (registration.deliveryId.any fun delivery => valid delivery 128) = true ∧
      registration.recipientEndpointId.all endpointMatches = true

/-- Two registrations can be in one file. -/
def Registration.Apart (first second : Registration) : Prop :=
  first.inflight = true → second.inflight = true →
    first.deliveryId ≠ second.deliveryId ∧
      ∀ endpoint, first.recipientEndpointId = some endpoint →
        second.recipientEndpointId ≠ some endpoint

/-- The registrations that a fresh registry admits. -/
structure Loadable (registrations : Table Registration) : Prop where
  bounded : registrations.rows.length ≤ maxRegistrations
  loadable : ∀ item ∈ registrations.rows, item.Loadable
  apart : ∀ first ∈ registrations.rows, ∀ second ∈ registrations.rows,
    key first ≠ key second → first.Apart second

theorem validLoadedItem_iff (registration : Registration) :
    validLoadedItem registration.toRegistrationFields = true ↔ registration.Loadable := by
  have hadmission : (registration.admissionId.all fun admission => valid admission 128) = true := by
    cases hcase : registration.admissionId with
    | none => rfl
    | some admission => exact registration.consistent.admitted admission hcase
  have hidle : (registration.idle == (registration.state == .idle)) = true := by
    rw [registration.consistent.idle_eq, beq_self_eq_true]
  rw [validLoadedItem, hadmission, hidle, Bool.true_and, Bool.true_and, Registration.Loadable,
    Registration.inflight, beq_iff_eq]
  by_cases hstate : registration.state = .wakeInflight
  · obtain ⟨instant, hattempted, hfinite⟩ := registration.consistent.attempted hstate
    rw [if_neg (not_not_intro hstate), hattempted, Option.any_some, hfinite, Bool.and_true,
      Bool.and_eq_true]
    exact ⟨fun hboth _ => hboth, fun hboth => hboth hstate⟩
  · obtain ⟨hdelivery, hattempted, hendpoint⟩ := registration.consistent.unreserved hstate
    rw [if_pos hstate, hdelivery, hattempted, hendpoint]
    exact ⟨fun _ hinflight => absurd hinflight hstate, fun _ => rfl⟩

variable {registration : Registration}

theorem loadable_of_loaded {item : Json}
    (hloaded : loadedRegistration item = some registration) : registration.Loadable := by
  obtain ⟨fields, -, hfields⟩ := Option.bind_eq_some_iff.mp hloaded
  split at hfields
  · next hvalid =>
      split at hfields
      · rw [← validLoadedItem_iff, ← Option.some.inj hfields]
        exact hvalid
      · cases hfields
  · cases hfields

theorem length_registrationItems {raw : Json} {items : List Json}
    (hitems : registrationItems raw = some items) : items.length ≤ maxRegistrations := by
  unfold registrationItems at hitems
  split at hitems
  · cases hitems
  · split at hitems
    · split at hitems
      · split at hitems
        · next hlength =>
            rw [← Option.some.inj hitems]
            exact hlength
        · cases hitems
      · cases hitems
    · cases hitems

section Loader

/-- The deliveries and endpoints that the loader remembers are those of the
attempts in flight that it admitted. -/
structure Loading.Remembers (loading : Loading) : Prop where
  delivery : ∀ delivery, delivery ∈ loading.inflightDeliveries ↔
    ∃ item ∈ loading.registrations.rows, item.inflight = true ∧ item.deliveryId = delivery
  endpoint : ∀ endpoint, endpoint ∈ loading.inflightEndpoints ↔
    ∃ item ∈ loading.registrations.rows,
      item.inflight = true ∧ item.recipientEndpointId = some endpoint

theorem Loading.start_remembers : Loading.start.Remembers :=
  ⟨fun _ => ⟨fun hmem => (List.not_mem_nil hmem).elim, fun hmem => by
      obtain ⟨item, hitem, -⟩ := hmem
      exact (List.not_mem_nil hitem).elim⟩,
    fun _ => ⟨fun hmem => (List.not_mem_nil hmem).elim, fun hmem => by
      obtain ⟨item, hitem, -⟩ := hmem
      exact (List.not_mem_nil hitem).elim⟩⟩

variable {loading admitted : Loading} {registration : Registration}

theorem Loading.Remembers.accept (hremembers : loading.Remembers)
    (haccept : loading.accept registration = some admitted) : admitted.Remembers := by
  have hrows := rows_accept haccept
  unfold Loading.accept at haccept
  split at haccept
  · cases haccept
  · split at haccept
    · cases haccept
    · have hadmitted := Option.some.inj haccept
      refine ⟨fun delivery => ?_, fun endpoint => ?_⟩
      · rw [hrows, ← hadmitted]
        simp only [List.mem_append, List.mem_singleton, or_and_right, exists_or, exists_eq_left]
        split
        · next hinflight =>
            rw [List.mem_cons, hremembers.delivery, or_comm]
            exact or_congr_right ⟨fun hdelivery => ⟨hinflight, hdelivery.symm⟩,
              fun hdelivery => hdelivery.2.symm⟩
        · next hsettled =>
            rw [hremembers.delivery]
            exact (or_iff_left fun hdelivery => hsettled hdelivery.1).symm
      · rw [hrows, ← hadmitted]
        simp only [List.mem_append, List.mem_singleton, or_and_right, exists_or, exists_eq_left]
        split
        · next hinflight =>
            rw [List.mem_append, hremembers.endpoint, or_comm, Option.mem_toList]
            exact or_congr_right ⟨fun hendpoint => ⟨hinflight, hendpoint⟩, And.right⟩
        · next hsettled =>
            rw [hremembers.endpoint]
            exact (or_iff_left fun hendpoint => hsettled hendpoint.1).symm

theorem Loading.Remembers.conflicts_eq_false (hremembers : loading.Remembers) :
    loading.conflicts registration = false ↔
      ∀ item ∈ loading.registrations.rows, item.Apart registration := by
  rw [Loading.conflicts, Bool.and_eq_false_iff, Bool.or_eq_false_iff]
  constructor
  · intro hfree item hitem hinflight hother
    obtain ⟨hdelivery, hendpoint⟩ := hfree.resolve_left (by rw [hother]; exact Bool.noConfusion)
    refine ⟨fun hsame => ?_, fun endpoint hfirst hsecond => ?_⟩
    · have hmem := (hremembers.delivery _).mpr ⟨item, hitem, hinflight, hsame⟩
      rw [← List.contains_iff_mem, hdelivery] at hmem
      cases hmem
    · have hmem := (hremembers.endpoint endpoint).mpr ⟨item, hitem, hinflight, hfirst⟩
      rw [hsecond, Option.any_some, ← Bool.not_eq_true, List.contains_iff_mem] at hendpoint
      exact hendpoint hmem
  · intro hapart
    cases hinflight : registration.inflight with
    | false => exact Or.inl rfl
    | true =>
      refine Or.inr ⟨?_, ?_⟩
      · rw [← Bool.not_eq_true, List.contains_iff_mem, hremembers.delivery]
        rintro ⟨item, hitem, hfirst, hsame⟩
        exact (hapart item hitem hfirst hinflight).1 hsame
      · cases hendpoint : registration.recipientEndpointId with
        | none => rfl
        | some endpoint =>
          rw [Option.any_some, ← Bool.not_eq_true, List.contains_iff_mem, hremembers.endpoint]
          rintro ⟨item, hitem, hfirst, hsame⟩
          exact (hapart item hitem hfirst hinflight).2 endpoint hsame hendpoint

theorem loadItems_accepts {registrations : List Registration} (hremembers : loading.Remembers)
    (hkeys : ((loading.registrations.rows ++ registrations).map key).Nodup)
    (hloadable : ∀ item ∈ registrations, item.Loadable)
    (hapart : (loading.registrations.rows ++ registrations).Pairwise Registration.Apart) :
    (loadItems loading (registrations.map itemOf)).2 = true := by
  induction registrations generalizing loading with
  | nil => rfl
  | cons registration rest ih =>
    have hvalid := (validLoadedItem_iff registration).mpr
      (hloadable registration List.mem_cons_self)
    have hfree : loading.registrations.get (key registration) = none := by
      rw [Table.get_eq_none_iff]
      rw [List.map_append, List.nodup_append] at hkeys
      intro hmem
      exact hkeys.2.2 _ hmem _ (List.mem_map_of_mem List.mem_cons_self) rfl
    have hconflicts : loading.conflicts registration = false := by
      rw [hremembers.conflicts_eq_false]
      intro item hitem
      rw [List.pairwise_append] at hapart
      exact hapart.2.2 item hitem registration List.mem_cons_self
    obtain ⟨registrations, hinsert⟩ := Table.insertNew_isSome hfree
    obtain ⟨admitted, haccept⟩ : ∃ admitted, loading.accept registration = some admitted := by
      simp only [Loading.accept, hinsert, hconflicts]
      exact ⟨_, rfl⟩
    rw [List.map_cons, loadItems, loadedRegistration_itemOf, if_pos hvalid, Option.bind_some,
      haccept]
    have hrows := rows_accept haccept
    refine ih (hremembers.accept haccept) ?_ (List.forall_mem_cons.mp hloadable).2 ?_
    · rw [hrows, List.append_assoc, List.singleton_append]
      exact hkeys
    · rw [hrows, List.append_assoc, List.singleton_append]
      exact hapart

/-- What is admitted can be loaded again. -/
theorem loadItems_loadable {items : List Json} {loaded : Loading} (hremembers : loading.Remembers)
    (hload : loadItems loading items = (loaded, true))
    (hloadable : ∀ item ∈ loading.registrations.rows, item.Loadable)
    (hapart : loading.registrations.rows.Pairwise Registration.Apart) :
    loaded.registrations.rows.length = loading.registrations.rows.length + items.length ∧
      (∀ item ∈ loaded.registrations.rows, item.Loadable) ∧
      loaded.registrations.rows.Pairwise Registration.Apart := by
  induction items generalizing loading with
  | nil =>
    rw [← (Prod.mk.inj hload).1]
    exact ⟨rfl, hloadable, hapart⟩
  | cons item items ih =>
    rw [loadItems] at hload
    split at hload
    · cases (Prod.mk.inj hload).2
    · next admitted hadmitted =>
        obtain ⟨registration, hregistration, haccept⟩ := Option.bind_eq_some_iff.mp hadmitted
        have hvalid := loadable_of_loaded hregistration
        have hrows := rows_accept haccept
        have hfree : loading.conflicts registration = false := by
          unfold Loading.accept at haccept
          split at haccept
          · cases haccept
          · split at haccept
            · cases haccept
            · next hfree => exact Bool.eq_false_iff.mpr hfree
        rw [hremembers.conflicts_eq_false] at hfree
        obtain ⟨hlength, hrest⟩ := ih (hremembers.accept haccept) hload
          (by
            intro found hfound
            rw [hrows, List.mem_append, List.mem_singleton] at hfound
            rcases hfound with hearlier | rfl
            · exact hloadable found hearlier
            · exact hvalid)
          (by
            rw [hrows, List.pairwise_append]
            refine ⟨hapart, List.pairwise_singleton _ _, fun first hfirst second hsecond => ?_⟩
            rw [List.mem_singleton.mp hsecond]
            exact hfree first hfirst)
        refine ⟨?_, hrest⟩
        rw [hlength, hrows, List.length_append, List.length_singleton, List.length_cons]
        omega

instance : Std.Symm Registration.Apart where
  symm _ _ hapart hsecond hfirst :=
    ⟨(hapart hfirst hsecond).1.symm,
      fun endpoint hother hendpoint => (hapart hfirst hsecond).2 endpoint hendpoint hother⟩

variable {directory : Directory} {registrations : Table Registration}

theorem Loadable.pairwise (hloadable : Loadable registrations) :
    registrations.rows.Pairwise Registration.Apart := by
  have hkeys : registrations.rows.Pairwise fun first second => key first ≠ key second :=
    List.pairwise_map.mp registrations.nodup
  exact hkeys.imp_of_mem fun hfirst hsecond hne => hloadable.apart _ hfirst _ hsecond hne

/-- A fresh registry that reads the directory is not refused and holds the
registrations. -/
def Reads (directory : Directory) (registrations : Table Registration) : Prop :=
  (load directory).rehydrationRefused = false ∧ (load directory).registrations = registrations

theorem reads_of_rows (haccepted : (load directory).rehydrationRefused = false)
    (hrows : (load directory).registrations.rows = registrations.rows) :
    Reads directory registrations := by
  refine ⟨haccepted, ?_⟩
  obtain ⟨rows, hnodup⟩ := registrations
  cases hloaded : (load directory).registrations with
  | mk found hfound =>
    rw [hloaded] at hrows
    cases hrows
    rfl

theorem Loadable.reads (hloadable : Loadable registrations)
    (hcanonical : directory.canonical = some (payloadOf registrations))
    (hunusable : directory.unusable = false) : Reads directory registrations := by
  have haccepts := @loadItems_accepts .start registrations.rows Loading.start_remembers
    registrations.nodup hloadable.loadable hloadable.pairwise
  have haccepted : (load directory).rehydrationRefused = false := by
    rw [load, hunusable, if_neg Bool.false_ne_true, hcanonical]
    simp only [registrationItems_payloadOf, if_pos hloadable.bounded]
    split
    · rfl
    · next hrefused =>
        rw [hrefused] at haccepts
        cases haccepts
  refine reads_of_rows haccepted ((load_payloadOf hcanonical).resolve_left fun hblank => ?_)
  rw [hblank.1] at haccepted
  cases haccepted

theorem loadable_of_accepted (haccepted : (load directory).rehydrationRefused = false) :
    Loadable (load directory).registrations := by
  rw [load] at haccepted ⊢
  split at haccepted
  · cases haccepted
  · next hunusable =>
      rw [if_neg hunusable]
      split at haccepted
      · exact ⟨Nat.zero_le _, fun _ hitem => (List.not_mem_nil hitem).elim,
          fun _ hitem => (List.not_mem_nil hitem).elim⟩
      · next raw hraw =>
          split at haccepted
          · cases haccepted
          · next items hitems =>
              split at haccepted
              · next loaded hload =>
                  simp only
                  obtain ⟨hlength, hvalid, hapart⟩ := loadItems_loadable Loading.start_remembers
                    hload (fun _ hitem => (List.not_mem_nil hitem).elim) List.Pairwise.nil
                  refine ⟨?_, hvalid, fun first hfirst second hsecond hne => ?_⟩
                  · rw [hlength]
                    exact (Nat.zero_add _).trans_le (length_registrationItems hitems)
                  · exact hapart.forall hfirst hsecond fun hsame => hne (congrArg key hsame)
              · cases haccepted

end Loader

section Storing

variable {registrations stored : Table Registration}

variable (hloadable : Loadable registrations)
include hloadable

theorem Loadable.of_rows (hbounded : stored.rows.length ≤ maxRegistrations)
    (hrows : ∀ item ∈ stored.rows, item.inflight = true →
      ∃ found ∈ registrations.rows, key found = key item ∧ found.inflight = true ∧
        item.deliveryId = found.deliveryId ∧
        item.recipientEndpointId = found.recipientEndpointId) :
    Loadable stored := by
  refine ⟨hbounded, fun item hitem hinflight => ?_, fun first hfirst second hsecond hne => ?_⟩
  · obtain ⟨found, hfound, -, hreserved, hdelivery, hendpoint⟩ := hrows item hitem hinflight
    rw [hdelivery, hendpoint]
    exact hloadable.loadable found hfound hreserved
  · intro hfirstInflight hsecondInflight
    obtain ⟨left, hleft, hleftKey, hleftInflight, hleftDelivery, hleftEndpoint⟩ :=
      hrows first hfirst hfirstInflight
    obtain ⟨right, hright, hrightKey, hrightInflight, hrightDelivery, hrightEndpoint⟩ :=
      hrows second hsecond hsecondInflight
    rw [hleftDelivery, hrightDelivery, hleftEndpoint, hrightEndpoint]
    rw [← hleftKey, ← hrightKey] at hne
    exact hloadable.apart left hleft right hright hne hleftInflight hrightInflight

theorem Loadable.set_settled (hsettled : registration.inflight = false)
    (hbounded : (registrations.set registration).rows.length ≤ maxRegistrations) :
    Loadable (registrations.set registration) := by
  refine hloadable.of_rows hbounded fun item hitem hinflight => ?_
  rcases Table.mem_rows_set.mp hitem with rfl | ⟨hold, -⟩
  · rw [hsettled] at hinflight
    cases hinflight
  · exact ⟨item, hold, rfl, hinflight, rfl, rfl⟩

theorem Loadable.erase (scope : Scope) :
    Loadable (registrations.erase scope) :=
  hloadable.of_rows ((List.length_filter_le _ _).trans hloadable.bounded)
    fun item hitem hinflight =>
      ⟨item, (Table.mem_rows_erase.mp hitem).1, rfl, hinflight, rfl, rfl⟩

theorem Loadable.set_reserved (hregistration : registration.Loadable)
    (hapart : ∀ item ∈ registrations.rows, key item ≠ key registration → item.Apart registration)
    (hbounded : (registrations.set registration).rows.length ≤ maxRegistrations) :
    Loadable (registrations.set registration) := by
  refine ⟨hbounded, fun item hitem => ?_, fun first hfirst second hsecond hne => ?_⟩
  · rcases Table.mem_rows_set.mp hitem with rfl | ⟨hold, -⟩
    · exact hregistration
    · exact hloadable.loadable item hold
  · rcases Table.mem_rows_set.mp hfirst with rfl | ⟨hearlier, hkey⟩
    · rcases Table.mem_rows_set.mp hsecond with rfl | ⟨hother, hotherKey⟩
      · exact absurd rfl hne
      · exact Std.Symm.symm _ _ (hapart second hother hotherKey)
    · rcases Table.mem_rows_set.mp hsecond with rfl | ⟨hother, -⟩
      · exact hapart first hearlier hkey
      · exact hloadable.apart first hearlier second hother hne

end Storing

/-- A request takes over a reservation of its scope and makes none. -/
theorem admitted_inflight {request : Registering}
    {hvalid : validRegistration request.scope request.socketPath request.token = true}
    {registry : Registry} (hinflight : (admitted request hvalid registry).inflight = true) :
    ∃ found ∈ registry.registrations.rows,
      key found = key (admitted request hvalid registry) ∧ found.inflight = true ∧
        (admitted request hvalid registry).deliveryId = found.deliveryId ∧
        (admitted request hvalid registry).recipientEndpointId = found.recipientEndpointId := by
  rcases admitted_cases request hvalid registry with ⟨found, hrenewed, hget, hreserved, hadmitted⟩ |
    ⟨-, hadmitted⟩
  · refine ⟨found, Table.mem_of_get hget, ?_, hreserved, ?_⟩
    · rw [hadmitted]
      rfl
    · rw [hadmitted]
      exact ⟨rfl, rfl⟩
  · rw [hadmitted, Registration.inflight_fresh] at hinflight
    cases hinflight

/-- An attempt that keeps its reservation has a delivery of its own. -/
def Attempt.reloads (call : Attempt) (registry : Registry) : Bool :=
  match call.eligible registry with
  | .error _ => true
  | .ok (_, answer) =>
    !answer.activation.keeps ||
      (call.deliveryId.isSome && registry.registrations.rows.all fun item =>
        !item.inflight || item.deliveryId != call.deliveryId)

def Operation.reloads (registry : Registry) : Operation → Bool
  | .attempt call => call.reloads registry
  | _ => true

section Programs

variable {machine : Machine} {around : Surroundings} {complete : Completion}

/-- No write fails. -/
def noFault (fault : Fault) : Prop := fault = .done

/-- The registry is not refused and a fresh one reads back what it holds. -/
structure Reloads (machine : Machine) : Prop where
  unrefused : machine.registry.rehydrationRefused = false
  unmarked : machine.directory.unusable = false
  loadable : Loadable machine.registry.registrations
  reads : Reads machine.directory machine.registry.registrations

theorem ensures_write {site : Site} {effect : Machine → Machine} {post : Bool → Machine → Prop}
    {stop : Site → Machine → Prop} (hdone : post true (effect machine)) :
    Ensures noFault (.write site effect) machine post stop :=
  Ensures.write hdone (nofun) (nofun)

namespace Reloads

theorem of_written (hloadable : Loadable machine.registry.registrations)
    (hadmitted : machine.registry.rehydrationRefused = false)
    (hunmarked : machine.directory.unusable = false)
    (hcanonical : machine.directory.canonical = some (payloadOf machine.registry.registrations)) :
    Reloads machine :=
  ⟨hadmitted, hunmarked, hloadable, hloadable.reads hcanonical hunmarked⟩

theorem removable : Removable Reloads fun _ => Reloads where
  unlinked _ _ hreloads :=
    ⟨hreloads.unrefused, hreloads.unmarked, hreloads.loadable, hreloads.reads⟩
  stops _ _ hreloads := hreloads
  removed _ scope _ hreloads :=
    of_written (hreloads.loadable.erase scope) hreloads.unrefused hreloads.unmarked rfl

variable (hreloads : Reloads machine)
include hreloads

theorem length_set {registration found : Registration}
    (hget : machine.registry.registrations.get (key registration) = some found) :
    (machine.registry.registrations.set registration).rows.length ≤ maxRegistrations := by
  rw [Table.length_set_of_get hget]
  exact hreloads.loadable.bounded

theorem markBusy (scope : Scope) :
    Ensures noFault (markBusy scope) machine (fun _ => Reloads) fun _ => Reloads := by
  refine bind (read ?_)
  split
  · exact pure hreloads
  · next registration hget =>
      split
      · exact pure hreloads
      · have hkey : registration.scope = scope := Table.key_of_get hget
        have hbusy := @Loadable.set_settled
          (registration.settle (machine.registry.generation + 1) .busy (by decide)) _ hreloads.loadable rfl
          (hreloads.length_set (hkey.symm ▸ hget))
        refine bind (Ensures.change (bind (ensures_write ?_)))
        exact bind (Ensures.change (pure
          (of_written hbusy hreloads.unrefused hreloads.unmarked rfl)))

theorem attempt (call : Attempt)
    (hcall : call.reloads machine.registry = true) :
    Ensures noFault (attempt around call) machine (fun _ => Reloads) fun _ => Reloads := by
  refine bind (read ?_)
  split
  · exact pure hreloads
  · next registration answer heligible =>
      obtain ⟨hget, -, hunfenced, hreservation⟩ := call.eligible_spec heligible
      have hscope : registration.scope = call.scope := Table.key_of_get hget
      generalize hconsumed : registration.consume (machine.registry.generation + 1)
        call.deliveryId around.wallClock call.recipientEndpointId = consumed
      have hkey : key consumed = call.scope := by rw [← hscope, ← hconsumed]; rfl
      have hbounded := hreloads.length_set (hkey.symm ▸ hget)
      have hmember : consumed ∈ (machine.registry.registrations.set consumed).rows :=
        Table.mem_rows_set.mpr (Or.inl rfl)
      refine bind (Ensures.change (bind (ensures_write ?_)))
      refine bind (Ensures.change (bind (Ensures.change ?_)))
      simp only
      split
      · next hkeeps =>
          refine bind (Ensures.change (pure (of_written ?_ hreloads.unrefused
            hreloads.unmarked rfl)))
          rw [Attempt.reloads, heligible] at hcall
          simp only [hkeeps, Bool.not_true, Bool.false_or, Bool.and_eq_true, List.all_eq_true,
            Bool.or_eq_true, Bool.not_eq_true', bne_iff_ne] at hcall
          obtain ⟨delivery, hdelivery⟩ := Option.isSome_iff_exists.mp hcall.1
          rw [Attempt.validReservation, hdelivery, Bool.and_eq_true] at hreservation
          obtain ⟨endpoint, hendpoint, hmatches⟩ := (Option.any_eq_true _ _).mp hreservation.2
          refine hreloads.loadable.set_reserved (fun _ => ?_) ?_ hbounded
          · rw [← hconsumed]
            change (call.deliveryId.any _ = true) ∧ call.recipientEndpointId.all _ = true
            rw [hdelivery, hendpoint]
            exact ⟨hreservation.1, hmatches⟩
          · rintro item hitem - hinflight -
            rw [← hconsumed]
            refine ⟨(hcall.2 item hitem).resolve_left (by rw [hinflight]; exact Bool.noConfusion),
              fun other hother hsame => ?_⟩
            have hfenced := hunfenced item hitem
            change call.recipientEndpointId = some other at hsame
            rw [Attempt.fencedBy, hinflight, hother, hsame] at hfenced
            simp at hfenced
      · refine bind (ensures_write ?_)
        refine bind (Ensures.change (pure (of_written ?_ hreloads.unrefused
          hreloads.unmarked rfl)))
        refine hreloads.loadable.of_rows ?_ fun item hitem hinflight => ?_
        · have hget : (machine.registry.registrations.set consumed).get
              (key (consumed.reset answer.activation)) = some consumed := by
            rw [consumed.key_reset]
            exact Table.get_of_mem hmember
          exact (Table.length_set_of_get hget).trans_le hbounded
        · rcases Table.mem_rows_set.mp hitem with rfl | ⟨hreserved, hne⟩
          · rw [consumed.inflight_reset] at hinflight
            cases hinflight
          · rcases Table.mem_rows_set.mp hreserved with rfl | ⟨hearlier, -⟩
            · exact absurd (item.key_reset answer.activation).symm hne
            · exact ⟨item, hearlier, rfl, hinflight, rfl, rfl⟩

theorem releaseDelivery (deliveryId : String) :
    Ensures noFault (releaseDelivery deliveryId) machine (fun _ => Reloads) fun _ => Reloads := by
  unfold ClaudeWake.releaseDelivery
  split
  · refine bind (read ?_)
    split
    · next current hmatching =>
        have hcurrent := List.mem_of_mem_filter (hmatching.symm ▸ List.mem_singleton_self current :
          current ∈ machine.registry.matching deliveryId)
        have hreleased := @Loadable.set_settled
          (current.settle (machine.registry.generation + 1) .busy (by decide)) _ hreloads.loadable rfl
          (hreloads.length_set (show machine.registry.registrations.get current.scope = some current
            from Table.get_of_mem hcurrent))
        refine bind (Ensures.change (bind (ensures_write ?_)))
        exact bind (Ensures.change (bind (Ensures.change (pure
          (of_written hreleased hreloads.unrefused hreloads.unmarked rfl)))))
    · exact pure hreloads
  · exact pure hreloads

theorem evictFirst {candidates : List Registration}
    (hcandidates : ∀ item ∈ candidates, item ∈ machine.registry.registrations.rows) :
    Ensures noFault (evictFirst around candidates) machine
      (fun roomy after => Reloads after ∧
        (roomy = true → after.registry.registrations.rows.length < maxRegistrations))
      fun _ => Reloads := by
  induction candidates with
  | nil => exact pure ⟨hreloads, nofun⟩
  | cons registration rest ih =>
    refine bind (read ?_)
    split
    · exact ih (List.forall_mem_cons.mp hcandidates).2
    · refine bind (ensures_write (bind (Ensures.change (pure ?_))))
      refine ⟨of_written (hreloads.loadable.erase registration.scope) hreloads.unrefused
        hreloads.unmarked rfl, fun _ => ?_⟩
      exact (Table.length_erase_of_get (Table.get_of_mem
        (hcandidates registration List.mem_cons_self))).trans_le hreloads.loadable.bounded

theorem ensureCapacity :
    Ensures noFault (ensureCapacity around) machine
      (fun roomy after => Reloads after ∧
        (roomy = true → after.registry.registrations.rows.length < maxRegistrations))
      fun _ => Reloads := by
  refine bind (read ?_)
  split
  · next hroomy => exact pure ⟨hreloads, fun _ => hroomy⟩
  · exact hreloads.evictFirst fun _ hitem => hitem

theorem storeAdmission (request : Registering)
    (hvalid : validRegistration request.scope request.socketPath request.token = true)
    (hbounded : (machine.registry.registrations.set
      (ClaudeWake.admitted request hvalid machine.registry)).rows.length ≤ maxRegistrations) :
    Ensures noFault (storeAdmission around request complete hvalid) machine (fun _ => Reloads)
      fun _ => Reloads := by
  have hloadable : Loadable (machine.registry.registrations.set
      (ClaudeWake.admitted request hvalid machine.registry)) := by
    refine hreloads.loadable.of_rows hbounded fun item hitem hinflight => ?_
    rcases Table.mem_rows_set.mp hitem with rfl | ⟨hearlier, -⟩
    · exact admitted_inflight hinflight
    · exact ⟨item, hearlier, rfl, hinflight, rfl, rfl⟩
  have hheld : Reloads ⟨{ machine.directory with
      canonical := some (payloadOf (machine.registry.registrations.set
        (ClaudeWake.admitted request hvalid machine.registry))), unusable := false },
      { machine.registry with
        generation := machine.registry.generation + 1
        rehydrationRefused := false
        registrations := machine.registry.registrations.set
          (ClaudeWake.admitted request hvalid machine.registry) }, machine.history⟩ :=
    ⟨rfl, rfl, hloadable, hloadable.reads rfl rfl⟩
  refine bind (read (bind (Ensures.change ?_)))
  refine bind (ensures_write (bind (bind (ensures_write ?_))))
  refine bind (Ensures.change (pure (bind (Ensures.change ?_))))
  cases complete with
  | proceeds => exact ensures_discard (removable.deleteIntent hheld _ _ _)
  | _ => exact pure hheld

theorem register (request : Registering) :
    Ensures noFault (register around request complete) machine (fun _ => Reloads)
      fun _ => Reloads := by
  unfold ClaudeWake.register
  split
  · next hvalid =>
      split
      · split
        · exact pure hreloads
        · refine bind (read ?_)
          split
          · exact pure hreloads
          · split
            · split
              · next hpresent =>
                  refine hreloads.storeAdmission request hvalid ?_
                  obtain ⟨found, hfound⟩ := Option.isSome_iff_exists.mp hpresent
                  exact hreloads.length_set ((scope_admitted request hvalid _).symm ▸ hfound)
              · refine bind (hreloads.ensureCapacity.mono ?_ fun _ _ hstop => hstop)
                rintro roomy after ⟨hafter, hroom⟩
                cases roomy with
                | true =>
                  exact hafter.storeAdmission request hvalid
                    ((Table.length_set_le _ _).trans (hroom rfl))
                | false => exact pure hafter
            · exact pure hreloads
      · exact pure hreloads
  · exact pure hreloads

theorem recoverIntents :
    Ensures noFault (recoverIntents around complete) machine (fun _ => Reloads)
      fun _ => Reloads :=
  removable.recoverIntents (fun _ request hcurrent => hcurrent.register request) nofun hreloads

theorem restart : Reloads machine.restart := by
  refine ⟨hreloads.reads.1, hreloads.unmarked, ?_, hreloads.reads.1, rfl⟩
  exact loadable_of_accepted hreloads.reads.1

theorem program (around : Surroundings) {operation : Operation}
    (hoperation : operation.reloads machine.registry = true) :
    Ensures noFault (operation.program around) machine (fun _ => Reloads) fun _ => Reloads := by
  cases operation with
  | register request complete => exact ensures_discard (hreloads.register request)
  | markBusy scope => exact ensures_discard (hreloads.markBusy scope)
  | attempt call => exact ensures_discard (hreloads.attempt call hoperation)
  | releaseDelivery deliveryId => exact ensures_discard (hreloads.releaseDelivery deliveryId)
  | recoverIntents complete => exact hreloads.recoverIntents
  | close scope intentId => exact ensures_discard (removable.close hreloads scope intentId)
  | remove scope => exact ensures_discard (removable.remove hreloads scope)
  | restart => exact Ensures.change hreloads.restart
  | hooks intents =>
    exact Ensures.change
      ⟨hreloads.unrefused, hreloads.unmarked, hreloads.loadable, hreloads.reads⟩

theorem step {first : Step}
    (hfaults : ∀ fault ∈ first.faults, fault = .done)
    (hoperation : first.operation.reloads machine.registry = true) :
    Reloads (machine.step first) := by
  have hending := hreloads.program first.around hoperation first.faults hfaults
  rw [← Machine.ending] at hending
  rw [Machine.step]
  cases hcase : machine.ending first with
  | returned value after left =>
    rw [hcase] at hending
    exact hending.1
  | stopped site after =>
    rw [hcase] at hending
    exact hending.restart

end Reloads

end Programs

section Runs

/-- No write of the step fails, and an attempt of it that keeps its reservation
has a delivery of its own. -/
def ReloadsAfter (machine : Machine) (first : Step) : Prop :=
  (∀ fault ∈ first.faults, fault = .done) ∧ first.operation.reloads machine.registry = true

/-- In every run without a failing write over a directory that was accepted, a
fresh registry accepts the capability file and holds exactly the registrations
in memory. -/
theorem registrations_reloaded (directory : Directory) (steps : List Step)
    (haccepted : (load directory).rehydrationRefused = false)
    (hsteps : Along Machine.step ReloadsAfter (.start directory) steps) :
    Reads (run Machine.step (.start directory) steps).directory
      (run Machine.step (.start directory) steps).registry.registrations := by
  have hstart : Reloads (.start directory) := by
    refine ⟨haccepted, ?_, loadable_of_accepted haccepted, haccepted, rfl⟩
    by_contra hmarked
    have hblank := load_of_unusable (Bool.not_eq_false _ ▸ hmarked)
    cases hblank.1.symm.trans haccepted
  exact (hsteps.invariant hstart fun _ _ hfirst hreloads =>
    hreloads.step hfirst.1 hfirst.2).reads

instance (machine : Machine) (first : Step) : Decidable (ReloadsAfter machine first) :=
  inferInstanceAs (Decidable (_ ∧ _))

/-- An attempt in flight survives the restart between two sessions. -/
theorem registrations_reloaded_inflight :
    (load twoSessions).rehydrationRefused = false ∧
      Along Machine.step ReloadsAfter (.start twoSessions)
        [registering "first", waking "first" "delivery", undisturbed .restart,
          registering "second"] ∧
      Reads (run Machine.step (.start twoSessions)
          [registering "first", waking "first" "delivery", undisturbed .restart,
            registering "second"]).directory
        (run Machine.step (.start twoSessions)
          [registering "first", waking "first" "delivery", undisturbed .restart,
            registering "second"]).registry.registrations :=
  have haccepted : (load twoSessions).rehydrationRefused = false := by decide
  have hsteps : Along Machine.step ReloadsAfter (.start twoSessions)
      [registering "first", waking "first" "delivery", undisturbed .restart,
        registering "second"] := by decide
  ⟨haccepted, hsteps, registrations_reloaded twoSessions _ haccepted hsteps⟩

/-- An accepted attempt without a delivery leaves a file that is refused. -/
theorem registrations_reloaded_deliveryless :
    ¬Reads (run Machine.step (.start twoSessions)
          [registering "first",
            undisturbed (.attempt ⟨session "first", some .accepted, none, none, .pending⟩)]).directory
        (run Machine.step (.start twoSessions)
          [registering "first",
            undisturbed (.attempt
              ⟨session "first", some .accepted, none, none, .pending⟩)]).registry.registrations := by
  intro hreads
  exact absurd hreads.1 (by decide)

end Runs

end Pallium.ClaudeWake
