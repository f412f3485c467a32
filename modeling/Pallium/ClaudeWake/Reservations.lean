import Pallium.ClaudeWake.Effects

/-!
# One wake for each reservation

An attempt that may have reached its session leaves a reservation, and no
transport may be called for the endpoint again before the delivery of that
reservation is released.  The reservation stands in memory, where every other
operation leaves a registration in flight alone, and in the capability file,
from which the next process reads it back or refuses everything.
-/

namespace Pallium.ClaudeWake

open Pallium.Faults Pallium.Run
open Pallium.Faults.Process (Ensures)
open Pallium.Faults.Process.Ensures (write bind read)

/-- A kept attempt for the endpoint is followed by a release of its delivery
before a transport is called for the endpoint again. -/
def WokenAtMostOnce (history : List Event) : Prop :=
  ∀ later between earlier endpoint delivery,
    history = later ++ .called (some endpoint) :: (between ++
      .kept (some endpoint) (some delivery) :: earlier) →
    Event.released delivery ∈ between

/-- The endpoints and deliveries of the kept attempts that no release has
ended. -/
def standing : List Event → List (String × String)
  | [] => []
  | .called _ :: earlier => standing earlier
  | .kept (some endpoint) (some delivery) :: earlier => (endpoint, delivery) :: standing earlier
  | .kept _ _ :: earlier => standing earlier
  | .released delivery :: earlier => (standing earlier).filter fun pair => pair.2 != delivery

/-- No transport was called for an endpoint with a standing reservation. -/
def CallsFenced : List Event → Prop
  | [] => True
  | .called endpoint :: earlier =>
    (∀ pair ∈ standing earlier, endpoint ≠ some pair.1) ∧ CallsFenced earlier
  | .kept _ _ :: earlier => CallsFenced earlier
  | .released _ :: earlier => CallsFenced earlier

theorem mem_standing {between earlier : List Event} {endpoint delivery : String}
    (hbetween : Event.released delivery ∉ between) :
    (endpoint, delivery) ∈
      standing (between ++ .kept (some endpoint) (some delivery) :: earlier) := by
  induction between with
  | nil => exact List.mem_cons_self
  | cons event rest ih =>
    have hrest := ih fun hmem => hbetween (List.mem_cons_of_mem _ hmem)
    cases event with
    | called _ => exact hrest
    | kept other found =>
      cases other <;> cases found <;> first | exact hrest | exact List.mem_cons_of_mem _ hrest
    | released other =>
      refine List.mem_filter.mpr ⟨hrest, ?_⟩
      rw [bne_iff_ne]
      rintro rfl
      exact hbetween List.mem_cons_self

theorem callsFenced_of_append {later earlier : List Event}
    (hfenced : CallsFenced (later ++ earlier)) : CallsFenced earlier := by
  induction later with
  | nil => exact hfenced
  | cons event rest ih =>
    cases event with
    | called _ => exact ih hfenced.2
    | kept _ _ => exact ih hfenced
    | released _ => exact ih hfenced

theorem CallsFenced.wokenAtMostOnce {history : List Event} (hfenced : CallsFenced history) :
    WokenAtMostOnce history := by
  rintro later between earlier endpoint delivery rfl
  by_contra hbetween
  exact (callsFenced_of_append hfenced).1 _ (mem_standing hbetween) rfl

/-- The registration is the reservation of the endpoint and the delivery. -/
def Registration.Reserves (registration : Registration) (pair : String × String) : Prop :=
  registration.inflight = true ∧ registration.recipientEndpointId = some pair.1 ∧
    registration.deliveryId = some pair.2

/-- The registrations hold every standing reservation. -/
def Keeps (registrations : Table Registration) (history : List Event) : Prop :=
  ∀ pair ∈ standing history, ∃ item ∈ registrations.rows, item.Reserves pair

/-- A process that reads the directory holds every standing reservation or
refuses everything. -/
def Covers (directory : Directory) (history : List Event) : Prop :=
  (load directory).Blank ∨ Keeps (load directory).registrations history

/-- Memory and directory hold every standing reservation. -/
structure Guarded (machine : Machine) : Prop where
  held : Keeps machine.registry.registrations machine.history
  durable : machine.registry.durabilityDegraded = true ∨ Covers machine.directory machine.history
  fenced : CallsFenced machine.history

section Keeping

variable {registrations : Table Registration} {history : List Event} {directory : Directory}

theorem Keeps.set (hkeeps : Keeps registrations history) {registration : Registration}
    (htakes : ∀ found ∈ registrations.rows, key found = key registration →
      ∀ pair ∈ standing history, found.Reserves pair → registration.Reserves pair) :
    Keeps (registrations.set registration) history := by
  intro pair hpair
  obtain ⟨item, hitem, hreserves⟩ := hkeeps pair hpair
  by_cases hkey : key item = key registration
  · exact ⟨registration, Table.mem_rows_set.mpr (Or.inl rfl),
      htakes item hitem hkey pair hpair hreserves⟩
  · exact ⟨item, Table.mem_rows_set.mpr (Or.inr ⟨hitem, hkey⟩), hreserves⟩

theorem Keeps.set_settled (hkeeps : Keeps registrations history)
    {registration found : Registration}
    (hget : registrations.get (key registration) = some found) (hsettled : found.inflight = false) :
    Keeps (registrations.set registration) history := by
  refine hkeeps.set fun other hother hkey pair _ hreserves => ?_
  have hsame : other = found := by
    have hother := Table.get_of_mem hother
    rw [hkey, hget] at hother
    exact (Option.some.inj hother).symm
  rw [hsame] at hreserves
  exact absurd hreserves.1 (by rw [hsettled]; exact Bool.false_ne_true)

theorem Keeps.erase (hkeeps : Keeps registrations history) {scope : Scope}
    (hsettled : ∀ found, registrations.get scope = some found → found.inflight = false) :
    Keeps (registrations.erase scope) history := by
  intro pair hpair
  obtain ⟨item, hitem, hreserves⟩ := hkeeps pair hpair
  refine ⟨item, Table.mem_rows_erase.mpr ⟨hitem, ?_⟩, hreserves⟩
  rintro rfl
  have hidle := hsettled item (Table.get_of_mem hitem)
  rw [hreserves.1] at hidle
  cases hidle

theorem Keeps.admitted {registry : Registry} (hkeeps : Keeps registry.registrations history)
    (request : Registering)
    (hvalid : validRegistration request.scope request.socketPath request.token = true) :
    Keeps (registry.registrations.set (admitted request hvalid registry)) history := by
  refine hkeeps.set fun found hfound hsame pair _ hreserves => ?_
  have hget := Table.get_of_mem hfound
  rw [hsame, scope_admitted] at hget
  rcases admitted_cases request hvalid registry with ⟨existing, hrenewed, hexisting, -, hadmitted⟩ |
    ⟨hsettled, -⟩
  · obtain rfl := Option.eq_some_unique hget hexisting
    rw [hadmitted]
    exact hreserves
  · exact absurd hreserves.1 (by rw [hsettled found hget]; exact Bool.false_ne_true)

theorem Keeps.kept (hkeeps : Keeps registrations history) {consumed : Registration}
    (hmember : consumed ∈ registrations.rows) {recipientEndpointId deliveryId : Option String}
    (hreserved : ∀ pair, consumed.Reserves pair ↔
      recipientEndpointId = some pair.1 ∧ deliveryId = some pair.2) :
    Keeps registrations
      (.kept recipientEndpointId deliveryId :: .called recipientEndpointId :: history) := by
  cases recipientEndpointId with
  | none => exact hkeeps
  | some endpoint =>
    cases deliveryId with
    | none => exact hkeeps
    | some delivery =>
      intro pair hpair
      rcases List.mem_cons.mp hpair with rfl | hearlier
      · exact ⟨consumed, hmember, (hreserved _).mpr ⟨rfl, rfl⟩⟩
      · exact hkeeps pair hearlier

theorem covers_of_unusable (hunusable : directory.unusable = true) :
    Covers directory history :=
  Or.inl (load_of_unusable hunusable)

theorem Keeps.covers (hkeeps : Keeps registrations history)
    (hcanonical : directory.canonical = some (payloadOf registrations)) :
    Covers directory history := by
  rcases load_payloadOf hcanonical with hblank | hrows
  · exact Or.inl hblank
  · refine Or.inr fun pair hpair => ?_
    rw [hrows]
    exact hkeeps pair hpair

end Keeping

section Fencing

variable {machine : Machine}

/-- All three outcomes of a write are considered. -/
def anyFault (_ : Fault) : Prop := True

/-- A process may stop between the two writes of a quarantine, or with every
reservation guarded. -/
def GuardedAt (site : Site) (machine : Machine) : Prop :=
  site = .markerAfterQuarantine ∨ Guarded machine

theorem ensures_quarantine (machine : Machine) :
    Ensures anyFault quarantineOrMarkUnusable machine
      (fun fenced after => ∃ directory, after = { machine with directory := directory } ∧
        (fenced = true ∨ machine.directory.unusable = true → directory.unusable = true))
      (fun site after => ∃ directory, after = { machine with directory := directory } ∧
        (machine.directory.unusable = true → directory.unusable = true) ∧
        (site = .markerAfterQuarantine ∨ directory = machine.directory)) := by
  have hmarker : Ensures anyFault (writeMarker .marker) machine
      (fun fenced after => ∃ directory, after = { machine with directory := directory } ∧
        (fenced = true ∨ machine.directory.unusable = true → directory.unusable = true))
      (fun site after => ∃ directory, after = { machine with directory := directory } ∧
        (machine.directory.unusable = true → directory.unusable = true) ∧
        (site = .markerAfterQuarantine ∨ directory = machine.directory)) := by
    refine write ⟨_, rfl, fun _ => rfl⟩ (fun _ => ⟨_, rfl, ?_⟩)
      fun _ => ⟨_, rfl, id, Or.inr rfl⟩
    exact fun heither => heither.resolve_left Bool.false_ne_true
  refine bind (read ?_)
  split
  · refine bind (write ?_ ?_ ?_)
    · refine write ⟨_, rfl, fun _ => rfl⟩ (fun _ => ⟨_, rfl, ?_⟩)
        fun _ => ⟨_, rfl, id, Or.inl rfl⟩
      exact fun heither => heither.resolve_left Bool.false_ne_true
    · exact fun _ => hmarker
    · exact fun _ => ⟨_, rfl, id, Or.inr rfl⟩
  · exact hmarker

theorem ensures_refuseRehydration (machine : Machine) :
    Ensures anyFault refuseRehydration machine
      (fun _ after => ∃ directory degraded,
        after = ⟨directory, { machine.registry with
          rehydrationRefused := true, durabilityDegraded := degraded }, machine.history⟩ ∧
        (degraded = true ∨ directory.unusable = true) ∧
        (machine.directory.unusable = true → directory.unusable = true))
      (fun site after => ∃ directory,
        after = ⟨directory, { machine.registry with rehydrationRefused := true },
          machine.history⟩ ∧
        (machine.directory.unusable = true → directory.unusable = true) ∧
        (site = .markerAfterQuarantine ∨ directory = machine.directory)) := by
  refine bind (Ensures.change ?_)
  refine bind ((ensures_quarantine _).mono ?_ ?_)
  · rintro fenced _ ⟨directory, rfl, hfenced⟩
    refine Ensures.change ⟨directory, !fenced, rfl, ?_, fun hmarked => hfenced (Or.inr hmarked)⟩
    cases fenced with
    | true => exact Or.inr (hfenced (Or.inl rfl))
    | false => exact Or.inl rfl
  · exact fun _ _ hstop => hstop

theorem guarded_removable : Removable Guarded GuardedAt where
  unlinked _ _ hguarded := ⟨hguarded.held, hguarded.durable, hguarded.fenced⟩
  stops _ _ hguarded := Or.inr hguarded
  removed _ _ hsettled hguarded :=
    have hkeeps := hguarded.held.erase hsettled
    ⟨hkeeps, Or.inr (hkeeps.covers rfl), hguarded.fenced⟩

namespace Guarded

variable (hguarded : Guarded machine) {registrations : Table Registration}
include hguarded

theorem advance : Guarded machine.advance :=
  ⟨hguarded.held, hguarded.durable, hguarded.fenced⟩

theorem hold
    (hkeeps : Keeps registrations machine.history) : Guarded (machine.hold registrations) :=
  ⟨hkeeps, hguarded.durable, hguarded.fenced⟩

theorem written (hkeeps : Keeps registrations machine.history) :
    Guarded (machine.onDirectory fun directory =>
      { directory with canonical := some (payloadOf registrations) }) :=
  ⟨hguarded.held, Or.inr (hkeeps.covers rfl), hguarded.fenced⟩

theorem refuseRehydration :
    Ensures anyFault refuseRehydration machine (fun _ => Guarded) GuardedAt := by
  refine (ensures_refuseRehydration machine).mono ?_ ?_
  · rintro _ _ ⟨directory, degraded, rfl, hfenced, -⟩
    exact ⟨hguarded.held, hfenced.imp id covers_of_unusable, hguarded.fenced⟩
  · rintro site _ ⟨directory, rfl, -, hsite | rfl⟩
    · exact Or.inl hsite
    · exact Or.inr ⟨hguarded.held, hguarded.durable, hguarded.fenced⟩

theorem markBusy (scope : Scope) :
    Ensures anyFault (markBusy scope) machine (fun _ => Guarded) GuardedAt := by
  refine bind (read ?_)
  split
  · exact Ensures.pure hguarded
  · next registration hget =>
      split
      · exact Ensures.pure hguarded
      · next hsettled =>
          have hkeeps : Keeps (machine.registry.registrations.set
              (registration.settle (machine.registry.generation + 1) .busy (by decide)))
              machine.history := by
            refine @Keeps.set_settled _ _ hguarded.held _ registration ?_ (by simpa using hsettled)
            change machine.registry.registrations.get registration.scope = _
            rw [show registration.scope = scope from Table.key_of_get hget]
            exact hget
          refine bind (Ensures.change ?_)
          refine bind (write ?_ (fun _ => ?_)
            fun _ => Or.inr hguarded.advance)
          · refine bind (Ensures.change (Ensures.pure ?_))
            exact (hguarded.advance.written hkeeps).hold hkeeps
          · refine bind (Ensures.change ?_)
            refine bind (((hguarded.advance.hold hkeeps).refuseRehydration).mono ?_
              fun _ _ hstop => hstop)
            exact fun _ _ hafter => Ensures.pure hafter

theorem attempt (around : Surroundings) (call : Attempt) :
    Ensures anyFault (attempt around call) machine (fun _ => Guarded) GuardedAt := by
  refine bind (read ?_)
  split
  · exact Ensures.pure hguarded
  · next registration answer heligible =>
      obtain ⟨hget, hidle, hunfenced, -⟩ := call.eligible_spec heligible
      have hscope : registration.scope = call.scope := Table.key_of_get hget
      generalize hconsumed : registration.consume (machine.registry.generation + 1)
        call.deliveryId around.wallClock call.recipientEndpointId = consumed
      have hkey : key consumed = call.scope := by rw [← hscope, ← hconsumed]; rfl
      have hkeeps : Keeps (machine.registry.registrations.set consumed) machine.history := by
        refine @Keeps.set_settled _ _ hguarded.held _ registration (by rw [hkey]; exact hget) ?_
        cases hinflight : registration.inflight with
        | false => rfl
        | true => rw [registration.idle_eq_false_of_inflight hinflight] at hidle; cases hidle
      have hfree : ∀ pair ∈ standing machine.history, call.recipientEndpointId ≠ some pair.1 := by
        intro pair hpair hendpoint
        obtain ⟨item, hitem, hinflight, hrecipient, -⟩ := hguarded.held pair hpair
        have hfenced := hunfenced item hitem
        rw [Attempt.fencedBy, hinflight, hrecipient, hendpoint] at hfenced
        simp at hfenced
      have hmember : consumed ∈ (machine.registry.registrations.set consumed).rows :=
        Table.mem_rows_set.mpr (Or.inl rfl)
      have hreserved : ∀ pair, consumed.Reserves pair ↔
          call.recipientEndpointId = some pair.1 ∧ call.deliveryId = some pair.2 := by
        rintro pair
        rw [← hconsumed]
        exact ⟨And.right, fun hpair => ⟨rfl, hpair⟩⟩
      have hkept := hkeeps.kept hmember hreserved
      refine bind (Ensures.change ?_)
      refine bind (write ?_ (fun _ => Ensures.pure hguarded.advance)
        fun _ => Or.inr hguarded.advance)
      refine bind (Ensures.change (bind (Ensures.change ?_)))
      simp only
      split
      · refine bind (Ensures.change (Ensures.pure ⟨hkept, ?_, hfree, hguarded.fenced⟩))
        exact Or.inr (hkept.covers rfl)
      · have hsettled : Keeps ((machine.registry.registrations.set consumed).set
            (consumed.reset answer.activation)) machine.history := by
          refine hkeeps.set fun found hfound hsame pair hpair hreserves => ?_
          have hfound : found = consumed := by
            have hget := Table.get_of_mem hfound
            rw [hsame, consumed.key_reset, Table.get_of_mem hmember] at hget
            exact (Option.some.inj hget).symm
          rw [hfound, hreserved] at hreserves
          exact absurd hreserves.1 (hfree pair hpair)
        refine bind (write ?_ (fun _ => ?_) fun _ => Or.inr ?_)
        · refine bind (Ensures.change (Ensures.pure ⟨hsettled, ?_, hfree, hguarded.fenced⟩))
          exact Or.inr (hsettled.covers rfl)
        · refine bind ((ensures_refuseRehydration _).mono ?_ ?_)
          · rintro _ _ ⟨directory, degraded, rfl, hrefused, -⟩
            refine bind (Ensures.change (Ensures.pure ⟨hkept, ?_, hfree, hguarded.fenced⟩))
            exact hrefused.imp id covers_of_unusable
          · rintro site _ ⟨directory, rfl, -, hsite | rfl⟩
            · exact Or.inl hsite
            · exact Or.inr ⟨hkeeps, Or.inr (hkeeps.covers rfl), hfree, hguarded.fenced⟩
        · exact ⟨hkeeps, Or.inr (hkeeps.covers rfl), hfree, hguarded.fenced⟩

theorem releaseDelivery (deliveryId : String) :
    Ensures anyFault (releaseDelivery deliveryId) machine (fun _ => Guarded) GuardedAt := by
  unfold ClaudeWake.releaseDelivery
  split
  · refine bind (read ?_)
    split
    · next current hmatching =>
        have hmatch := List.mem_filter.mp (hmatching.symm ▸ List.mem_singleton_self current :
          current ∈ machine.registry.matching deliveryId)
        rw [Bool.and_eq_true, beq_iff_eq] at hmatch
        obtain ⟨hcurrent, hinflight, hdelivery⟩ := hmatch
        have hreleased : Keeps (machine.registry.registrations.set
            (current.settle (machine.registry.generation + 1) .busy (by decide)))
            (.released deliveryId :: machine.history) := by
          intro pair hpair
          obtain ⟨hstanding, hother⟩ := List.mem_filter.mp hpair
          obtain ⟨item, hitem, hreserves⟩ := hguarded.held pair hstanding
          refine ⟨item, Table.mem_rows_set.mpr (Or.inr ⟨hitem, ?_⟩), hreserves⟩
          intro hsame
          have hget := Table.get_of_mem hitem
          rw [hsame] at hget
          change machine.registry.registrations.get (key current) = _ at hget
          rw [Table.get_of_mem hcurrent, Option.some.injEq] at hget
          rw [hget, hreserves.2.2, Option.some.injEq] at hdelivery
          rw [hdelivery] at hother
          simp at hother
        refine bind (Ensures.change ?_)
        refine bind (write ?_ (fun _ => ?_) fun _ => Or.inr hguarded.advance)
        · refine bind (Ensures.change (bind (Ensures.change (Ensures.pure ?_))))
          exact ⟨hreleased, Or.inr (hreleased.covers rfl), hguarded.fenced⟩
        · exact bind (hguarded.advance.refuseRehydration.mono
            (fun _ _ hafter => Ensures.pure hafter) fun _ _ hstop => hstop)
    · exact Ensures.pure hguarded
  · exact Ensures.pure hguarded

variable (around : Surroundings)

theorem evictFirst {candidates : List Registration}
    (hcandidates : ∀ item ∈ candidates, item ∈ machine.registry.registrations.rows) :
    Ensures anyFault (evictFirst around candidates) machine (fun _ => Guarded) GuardedAt := by
  induction candidates with
  | nil => exact Ensures.pure hguarded
  | cons registration rest ih =>
    have hrest := ih (List.forall_mem_cons.mp hcandidates).2
    refine bind (read ?_)
    split
    · exact hrest
    · next hevicted =>
        have hsettled : machine.Settled registration.scope := by
          intro found hfound
          have hget := Table.get_of_mem (hcandidates registration List.mem_cons_self)
          change machine.registry.registrations.get registration.scope = _ at hget
          rw [hget, Option.some.injEq] at hfound
          rw [← hfound]
          simp only [Bool.or_eq_true, not_or, Bool.not_eq_true] at hevicted
          exact hevicted.1
        refine bind (write ?_ (fun _ => hrest) fun _ => Or.inr hguarded)
        refine bind (Ensures.change (Ensures.pure ?_))
        exact guarded_removable.removed _ _ hsettled hguarded

theorem ensureCapacity :
    Ensures anyFault (ensureCapacity around) machine (fun _ => Guarded) GuardedAt := by
  refine bind (read ?_)
  split
  · exact Ensures.pure hguarded
  · exact hguarded.evictFirst around fun _ hitem => hitem

theorem storeAdmission (request : Registering)
    (complete : Completion)
    (hvalid : validRegistration request.scope request.socketPath request.token = true) :
    Ensures anyFault (storeAdmission around request complete hvalid) machine (fun _ => Guarded)
      GuardedAt := by
  have hkeeps := hguarded.held.admitted request hvalid
  generalize hregistrations : machine.registry.registrations.set
    (admitted request hvalid machine.registry) = registrations at hkeeps
  refine bind (read ?_)
  simp only [hregistrations]
  refine bind (Ensures.change ?_)
  refine bind (write ?_ (fun _ => Ensures.pure hguarded.advance)
    fun _ => Or.inr hguarded.advance)
  have hwritten := hguarded.advance.written hkeeps
  refine bind (bind (write ?_ (fun _ => ?_) fun _ => Or.inr hwritten))
  · have hheld : ∀ registry, registry.registrations = registrations →
        Guarded ⟨{ machine.directory with
          canonical := some (payloadOf registrations), unusable := false }, registry,
          machine.history⟩ := by
      rintro registry rfl
      exact ⟨hkeeps, Or.inr (hkeeps.covers rfl), hguarded.fenced⟩
    refine bind (Ensures.change (Ensures.pure ?_))
    refine bind (Ensures.change ?_)
    cases complete with
    | proceeds => exact ensures_discard (guarded_removable.deleteIntent (hheld _ rfl) _ _ _)
    | _ => exact Ensures.pure (hheld _ rfl)
  · refine bind (Ensures.change (Ensures.pure (Ensures.pure ?_)))
    exact ⟨hguarded.held, Or.inr (hkeeps.covers rfl), hguarded.fenced⟩

theorem register (request : Registering)
    (complete : Completion) :
    Ensures anyFault (register around request complete) machine (fun _ => Guarded) GuardedAt := by
  unfold ClaudeWake.register
  split
  · next hvalid =>
      split
      · split
        · exact Ensures.pure hguarded
        · refine bind (read ?_)
          split
          · exact Ensures.pure hguarded
          · split
            · split
              · exact hguarded.storeAdmission around request complete hvalid
              · refine bind ((hguarded.ensureCapacity around).mono ?_ fun _ _ hstop => hstop)
                intro roomy after hafter
                cases roomy with
                | true => exact hafter.storeAdmission around request complete hvalid
                | false => exact Ensures.pure hafter
            · exact Ensures.pure hguarded
      · exact Ensures.pure hguarded
  · exact Ensures.pure hguarded

end Guarded

end Fencing

section Recovery

variable {machine : Machine} {around : Surroundings} {complete : Completion}

namespace Guarded

theorem recoverIntents (hguarded : Guarded machine) :
    Ensures anyFault (recoverIntents around complete) machine (fun _ => Guarded) GuardedAt :=
  guarded_removable.recoverIntents
    (fun _ request hcurrent => hcurrent.register around request complete)
    (fun _ _ _ hsettled hcurrent =>
      (hcurrent.hold (hcurrent.held.erase hsettled)).refuseRehydration) hguarded

end Guarded

end Recovery

section Refused

variable {machine : Machine} {stop : Site → Machine → Prop} {around : Surroundings}
  {complete : Completion} {registry : Registry}

theorem Registry.Blank.get_eq_none (hblank : registry.Blank)
    (scope : Scope) : registry.registrations.get scope = none := by
  rw [Table.get, hblank.2]
  rfl

section

variable (hblank : machine.registry.Blank)
include hblank

theorem Registry.Blank.register (request : Registering) :
    Ensures anyFault (register around request complete) machine
      (fun _ after => after = machine) stop := by
  unfold ClaudeWake.register
  split
  · split
    · split
      · exact Ensures.pure rfl
      · refine bind (read ?_)
        rw [if_pos hblank.1]
        exact Ensures.pure rfl
    · exact Ensures.pure rfl
  · exact Ensures.pure rfl

theorem Registry.Blank.markBusy (scope : Scope) :
    Ensures anyFault (markBusy scope) machine (fun _ after => after = machine) stop := by
  refine bind (read ?_)
  rw [hblank.get_eq_none]
  exact Ensures.pure rfl

theorem Registry.Blank.attempt (call : Attempt) :
    Ensures anyFault (attempt around call) machine (fun _ after => after = machine) stop := by
  refine bind (read ?_)
  split
  · exact Ensures.pure rfl
  · next heligible =>
      have hget := (Attempt.eligible_spec heligible).1
      rw [hblank.get_eq_none] at hget
      cases hget

theorem Registry.Blank.releaseDelivery (deliveryId : String) :
    Ensures anyFault (releaseDelivery deliveryId) machine
      (fun _ after => after = machine) stop := by
  unfold ClaudeWake.releaseDelivery
  split
  · refine bind (read ?_)
    rw [Registry.matching, hblank.2]
    exact Ensures.pure rfl
  · exact Ensures.pure rfl

theorem Registry.Blank.remove (scope : Scope) :
    Ensures anyFault (remove around scope) machine (fun _ after => after = machine) stop := by
  unfold ClaudeWake.remove
  split
  · exact Ensures.pure rfl
  · refine bind (read ?_)
    rw [hblank.get_eq_none]
    exact Ensures.pure rfl

end

/-- A refused registry whose directory is marked unusable. -/
structure Marked (machine : Machine) : Prop where
  blank : machine.registry.Blank
  unusable : machine.directory.unusable = true
  fenced : CallsFenced machine.history

namespace Marked

theorem erase_rows (hblank : registry.Blank) (scope : Scope) :
    (registry.registrations.erase scope).rows = [] := by
  refine List.eq_nil_iff_forall_not_mem.mpr fun row hrow => ?_
  have hmem := (Table.mem_rows_erase.mp hrow).1
  rw [hblank.2] at hmem
  cases hmem

variable (hmarked : Marked machine)
include hmarked

theorem hold (scope : Scope) :
    Marked (machine.hold (machine.registry.registrations.erase scope)) :=
  ⟨⟨hmarked.blank.1, erase_rows hmarked.blank scope⟩, hmarked.unusable, hmarked.fenced⟩

theorem refuseRehydration :
    Ensures anyFault refuseRehydration machine (fun _ => Marked) (fun _ => Marked) := by
  refine (ensures_refuseRehydration _).mono ?_ ?_
  · rintro _ _ ⟨directory, degraded, rfl, -, hunusable⟩
    exact ⟨⟨rfl, hmarked.blank.2⟩, hunusable hmarked.unusable, hmarked.fenced⟩
  · rintro _ _ ⟨directory, rfl, hunusable, -⟩
    exact ⟨⟨rfl, hmarked.blank.2⟩, hunusable hmarked.unusable, hmarked.fenced⟩

omit hmarked

theorem removable : Removable Marked fun _ => Marked where
  unlinked _ _ hmarked := ⟨hmarked.blank, hmarked.unusable, hmarked.fenced⟩
  stops _ _ hmarked := hmarked
  removed _ scope _ hmarked :=
    ⟨⟨hmarked.blank.1, erase_rows hmarked.blank scope⟩, hmarked.unusable, hmarked.fenced⟩

theorem recoverIntents (hmarked : Marked machine) :
    Ensures anyFault (recoverIntents around complete) machine (fun _ => Marked)
      (fun _ => Marked) :=
  removable.recoverIntents
    (fun _ request hcurrent => (hcurrent.blank.register request).mono
      (fun _ _ hafter => hafter ▸ hcurrent) fun _ _ hstop => hstop)
    (fun _ _ scope _ hcurrent => (hcurrent.hold scope).refuseRehydration) hmarked

end Marked

/-- The intent closes its scope and expects no admission. -/
def closesOutright (intent : List (String × Json)) : Bool :=
  (Json.getD intent "closed").same (.bool true) && !Json.has intent "expected_admission_id"

/-- `recover_intents` rewrites the capability file for this intent file even
when the registry holds nothing. -/
def fences (around : Surroundings) (file : String × Json) : Bool :=
  file.2.fields?.any fun fields =>
    (scopeOf fields).any fun scope =>
      if file.1 == safeSessionFile around scope then closesOutright fields
      else !Json.has fields "actor_ref" && !"revoke-".toList.isPrefixOf file.1.toList

/-- The operation rewrites the capability file even when the registry holds
nothing. -/
def Operation.rewrites (around : Surroundings) (directory : Directory) : Operation → Bool
  | .close scope intentId =>
    (readIntent around directory scope).any fun intent =>
      closes scope intentId intent && closesOutright intent
  | .recoverIntents _ => directory.intents.any (fences around)
  | _ => false

/-- Only intent files were removed. -/
structure Quiet (start machine : Machine) : Prop where
  registry_eq : machine.registry = start.registry
  history_eq : machine.history = start.history
  canonical_eq : machine.directory.canonical = start.directory.canonical
  unusable_eq : machine.directory.unusable = start.directory.unusable
  intents_subset : machine.directory.intents ⊆ start.directory.intents

namespace Quiet

variable {start : Machine}

variable {scope : Scope}

theorem undisturbed : Undisturbed (Quiet start) fun _ => Quiet start where
  unlinked _ _ hquiet :=
    ⟨hquiet.registry_eq, hquiet.history_eq, hquiet.canonical_eq, hquiet.unusable_eq,
      fun _ hfile => hquiet.intents_subset (List.mem_of_mem_filter hfile)⟩
  stops _ _ hquiet := hquiet

theorem refl (start : Machine) : Quiet start start := ⟨rfl, rfl, rfl, rfl, fun _ hfile => hfile⟩

section

variable (hquiet : Quiet start machine) (hblank : start.registry.Blank)
include hquiet hblank

theorem blank :
    machine.registry.Blank := hquiet.registry_eq.symm ▸ hblank

theorem close {intentId : Json}
    (hexpects : ∀ intent, readIntent around machine.directory scope = some intent →
      closes scope intentId intent = true → closesOutright intent = false) :
    Ensures anyFault (close around scope intentId) machine (fun _ => Quiet start)
      (fun _ => Quiet start) := by
  unfold ClaudeWake.close
  split
  · exact Ensures.pure hquiet
  · refine bind (read ?_)
    split
    · exact Ensures.pure hquiet
    · next intent hintent =>
        split
        · next hcloses =>
            have hdropped : expectsAnother none intent = true := by
              have houtright := hexpects intent hintent hcloses
              rw [closes, Bool.and_eq_true, Bool.and_eq_true, Bool.and_eq_true,
                Bool.and_eq_true] at hcloses
              rw [closesOutright, hcloses.1.1.1.2, Bool.true_and, Bool.not_eq_false',
                Json.has] at houtright
              obtain ⟨expected, hexpected⟩ := Option.isSome_iff_exists.mp houtright
              rw [expectsAnother, hexpected]
            simp only [(hquiet.blank hblank).get_eq_none]
            rw [if_pos hdropped]
            exact ensures_discard (undisturbed.deleteIntent hquiet _ _ _)
        · exact Ensures.pure hquiet

theorem recoverRevocation (name : String) (fields : List (String × Json)) :
    Ensures anyFault (recoverRevocation around name fields) machine (fun _ => Quiet start)
      (fun _ => Quiet start) := by
  unfold ClaudeWake.recoverRevocation
  split
  · exact Ensures.pure hquiet
  · split
    · exact Ensures.pure hquiet
    · refine bind (read ?_)
      rw [(hquiet.blank hblank).get_eq_none]
      exact undisturbed.unlinkNotice hquiet name fields

end

theorem mem_of_readIntent {directory : Directory} {intent : List (String × Json)}
    (hread : readIntent around directory scope = some intent) :
    (safeSessionFile around scope, .object intent) ∈ directory.intents := by
  rw [readIntent, readIntentFile] at hread
  cases hfind : directory.intents.find? fun file => file.1 == safeSessionFile around scope with
  | none =>
    rw [hfind] at hread
    cases hread
  | some file =>
    obtain ⟨name, value⟩ := file
    have hname : name = safeSessionFile around scope := by
      simpa using List.find?_some hfind
    have hvalue : value.fields? = some intent := by
      rw [hfind] at hread
      exact hread
    have hobject : value = .object intent := by
      cases value with
      | object _ => cases hvalue; rfl
      | _ => cases hvalue
    rw [← hname, ← hobject]
    exact List.mem_of_find?_eq_some hfind

theorem scopeOf_of_closes {intentId : Json} {intent : List (String × Json)}
    (hcloses : closes scope intentId intent = true) : scopeOf intent = some scope := by
  have htext : ∀ {value : Json} {text : String}, value.isText text = true →
      value.text? = some text := fun hvalue => by simpa [Json.isText] using hvalue
  simp only [closes, Bool.and_eq_true] at hcloses
  obtain ⟨⟨⟨-, hruntime⟩, hsession⟩, hcontainer⟩ := hcloses
  simp only [scopeOf, htext hruntime, htext hsession, htext hcontainer]
  rfl

/-- No intent file of the start lets the recovery rewrite the capability file. -/
def Calm (around : Surroundings) (start : Machine) : Prop :=
  ∀ file ∈ start.directory.intents, fences around file = false

theorem applyScoped (hquiet : Quiet start machine) (hblank : start.registry.Blank)
    (hcalm : Calm around start) (intent : PendingIntent) :
    Ensures anyFault (applyScoped around complete intent) machine (fun _ => Quiet start)
      (fun _ => Quiet start) := by
  unfold ClaudeWake.applyScoped
  split
  · split
    · exact Ensures.pure hquiet
    · refine bind ((hquiet.close hblank ?_).mono
        (fun _ _ hafter => Ensures.pure hafter) fun _ _ hstop => hstop)
      intro found hfound hcloses
      have hfile := hcalm _ (hquiet.intents_subset (mem_of_readIntent hfound))
      rw [fences, Json.fields?, Option.any_some, scopeOf_of_closes hcloses, Option.any_some,
        beq_self_eq_true, if_pos rfl] at hfile
      exact hfile
  · split
    · exact Ensures.pure hquiet
    · refine ((hquiet.blank hblank).register _).mono ?_ fun _ _ hstop => hstop
      rintro _ _ rfl
      exact hquiet

theorem exactScope_of_calm (hcalm : Calm around start) {intent : PendingIntent}
    (hfrom : intent.From around start.directory.intents) : intent.exactScope = true := by
  have hfile := hcalm _ hfrom.file
  rw [hfrom.exact_eq]
  by_contra hother
  simp only [fences, Json.fields?, hfrom.scope_eq, Option.any_some, if_neg hother,
    hfrom.unattributed, hfrom.noNotice, Bool.not_false, Bool.and_self, Bool.true_eq_false] at hfile

theorem recoverIntents (hblank : start.registry.Blank) (hcalm : Calm around start) :
    Ensures anyFault (recoverIntents around complete) start (fun _ => Quiet start)
      (fun _ => Quiet start) :=
  ensures_recoverIntents
    (fun _ name fields hcurrent => hcurrent.recoverRevocation hblank name fields)
    (fun _ intent _ _ hcurrent => hcurrent.applyScoped hblank hcalm intent)
    (fun _ _ _ hfrom hlegacy _ => by
      rw [exactScope_of_calm hcalm hfrom] at hlegacy
      cases hlegacy)
    (refl start)

end Quiet

end Refused

section Runs

variable {machine : Machine}

/-- No degraded durability is reported before the step or at its end. -/
def Undegraded (machine : Machine) (first : Step) : Prop :=
  machine.registry.durabilityDegraded = false ∧
    (machine.ending first).state.registry.durabilityDegraded = false

/-- The process does not stop between the two writes of a quarantine, and a
registry that refused an unmarked directory does not rewrite its capability
file. -/
def Meets (machine : Machine) (first : Step) : Prop :=
  (machine.ending first).site ≠ some .markerAfterQuarantine ∧
    (machine.registry.Blank → machine.directory.unusable = false →
      first.operation.rewrites first.around machine.directory = false)

/-- Nothing is registered, and the directory covers the standing reservations. -/
structure Inert (machine : Machine) : Prop where
  blank : machine.registry.Blank
  durable : Covers machine.directory machine.history
  fenced : CallsFenced machine.history

/-- Every reservation is guarded, or nothing is registered. -/
def Safe (machine : Machine) : Prop := Guarded machine ∨ Inert machine

theorem Covers.safe_restart (hcovers : Covers machine.directory machine.history)
    (hfenced : CallsFenced machine.history) : Safe machine.restart := by
  rcases hcovers with hblank | hkeeps
  · exact Or.inr ⟨hblank, Or.inl hblank, hfenced⟩
  · exact Or.inl ⟨hkeeps, Or.inr (Or.inr hkeeps), hfenced⟩

theorem Guarded.safe_restart (hguarded : Guarded machine)
    (hundegraded : machine.registry.durabilityDegraded = false) : Safe machine.restart := by
  refine Covers.safe_restart (hguarded.durable.resolve_left ?_) hguarded.fenced
  rw [hundegraded]
  exact Bool.false_ne_true

theorem load_congr {directory other : Directory} (hcanonical : directory.canonical = other.canonical)
    (hunusable : directory.unusable = other.unusable) : load directory = load other := by
  rw [load, load, hcanonical, hunusable]

theorem Quiet.inert {start : Machine} (hquiet : Quiet start machine) (hinert : Inert start) :
    Inert machine := by
  refine ⟨hquiet.blank hinert.blank, ?_, hquiet.history_eq ▸ hinert.fenced⟩
  rw [Covers, load_congr hquiet.canonical_eq hquiet.unusable_eq, hquiet.history_eq]
  exact hinert.durable

theorem Marked.inert (hmarked : Marked machine) : Inert machine :=
  ⟨hmarked.blank, covers_of_unusable hmarked.unusable, hmarked.fenced⟩

theorem Guarded.program (hguarded : Guarded machine) (around : Surroundings)
    {operation : Operation} (hrestart : operation ≠ .restart) :
    Ensures anyFault (operation.program around) machine (fun _ => Guarded) GuardedAt := by
  cases operation with
  | register request complete => exact ensures_discard (hguarded.register around request complete)
  | markBusy scope => exact ensures_discard (hguarded.markBusy scope)
  | attempt call => exact ensures_discard (hguarded.attempt around call)
  | releaseDelivery deliveryId => exact ensures_discard (hguarded.releaseDelivery deliveryId)
  | recoverIntents complete => exact hguarded.recoverIntents
  | close scope intentId => exact ensures_discard (guarded_removable.close hguarded scope intentId)
  | remove scope => exact ensures_discard (guarded_removable.remove hguarded scope)
  | restart => exact absurd rfl hrestart
  | hooks intents =>
    exact Ensures.change ⟨hguarded.held, hguarded.durable, hguarded.fenced⟩

theorem Inert.unchanged {α : Type} (hinert : Inert machine) {program : Program α}
    (hprogram : Ensures anyFault program machine (fun _ after => after = machine)
      fun _ => Inert) :
    Ensures anyFault (do let _ ← program; pure ()) machine (fun _ => Inert) fun _ => Inert :=
  ensures_discard (hprogram.mono (fun _ _ hafter => hafter ▸ hinert) fun _ _ hstop => hstop)

theorem Inert.program (hinert : Inert machine) (around : Surroundings) {operation : Operation}
    (hrestart : operation ≠ .restart)
    (hrewrites : machine.directory.unusable = false →
      operation.rewrites around machine.directory = false) :
    Ensures anyFault (operation.program around) machine (fun _ => Inert) fun _ => Inert := by
  have hmarked : machine.directory.unusable = true → Marked machine :=
    fun hunusable => ⟨hinert.blank, hunusable, hinert.fenced⟩
  cases operation with
  | register request complete => exact hinert.unchanged (hinert.blank.register request)
  | markBusy scope => exact hinert.unchanged (hinert.blank.markBusy scope)
  | attempt call => exact hinert.unchanged (hinert.blank.attempt call)
  | releaseDelivery deliveryId => exact hinert.unchanged (hinert.blank.releaseDelivery deliveryId)
  | remove scope => exact hinert.unchanged (hinert.blank.remove scope)
  | restart => exact absurd rfl hrestart
  | hooks intents => exact Ensures.change ⟨hinert.blank, hinert.durable, hinert.fenced⟩
  | recoverIntents complete =>
    cases hunusable : machine.directory.unusable with
    | true =>
      exact (hmarked hunusable).recoverIntents.mono (fun _ _ hafter => hafter.inert)
        fun _ _ hstop => hstop.inert
    | false =>
      have hcalm : Quiet.Calm around machine := by
        intro file hfile
        have hnone := hrewrites hunusable
        rw [Operation.rewrites, List.any_eq_false] at hnone
        simpa using hnone file hfile
      exact (Quiet.recoverIntents hinert.blank hcalm).mono
        (fun _ _ hafter => hafter.inert hinert) fun _ _ hstop => hstop.inert hinert
  | close scope intentId =>
    refine ensures_discard ?_
    cases hunusable : machine.directory.unusable with
    | true =>
      exact (Marked.removable.close (hmarked hunusable) scope intentId).mono (fun _ _ hafter => hafter.inert)
        fun _ _ hstop => hstop.inert
    | false =>
      refine ((Quiet.refl machine).close hinert.blank ?_).mono
        (fun _ _ hafter => hafter.inert hinert) fun _ _ hstop => hstop.inert hinert
      intro intent hintent hcloses
      have hoperation := hrewrites hunusable
      rw [Operation.rewrites, hintent, Option.any_some, hcloses, Bool.true_and] at hoperation
      exact hoperation

theorem Safe.step (hsafe : Safe machine) {first : Step} (hundegraded : Undegraded machine first)
    (hmeets : Meets machine first) : Safe (machine.step first) := by
  by_cases hrestart : first.operation = .restart
  · have hstep : machine.step first = machine.restart := by
      rw [Machine.step, Machine.ending, hrestart]
      rfl
    rw [hstep]
    rcases hsafe with hguarded | hinert
    · exact hguarded.safe_restart hundegraded.1
    · exact hinert.durable.safe_restart hinert.fenced
  · rw [Machine.step]
    have hstopped := hundegraded.2
    have hsite := hmeets.1
    rcases hsafe with hguarded | hinert
    · have hending := hguarded.program first.around hrestart first.faults fun _ _ => trivial
      rw [← Machine.ending] at hending
      cases hcase : machine.ending first with
      | returned value after left =>
        rw [hcase] at hending
        exact Or.inl hending.1
      | stopped site after =>
        rw [hcase] at hending hstopped hsite
        have hafter : Guarded after := hending.resolve_left fun hequal =>
          hsite (congrArg some hequal)
        exact hafter.safe_restart hstopped
    · have hending := hinert.program first.around hrestart (hmeets.2 hinert.blank) first.faults
        fun _ _ => trivial
      rw [← Machine.ending] at hending
      cases hcase : machine.ending first with
      | returned value after left =>
        rw [hcase] at hending
        exact Or.inr hending.1
      | stopped site after =>
        rw [hcase] at hending
        exact hending.durable.safe_restart hending.fenced

/-- A kept attempt is the only one for its endpoint until its delivery is
released, in every run that reports no degraded durability and meets the
condition. -/
theorem woken_at_most_once (directory : Directory) (steps : List Step)
    (hundegraded : Along Machine.step Undegraded (.start directory) steps)
    (hmeets : Along Machine.step Meets (.start directory) steps) :
    WokenAtMostOnce (run Machine.step (.start directory) steps).history := by
  have hstart : Safe (.start directory) :=
    Or.inl ⟨fun _ hpair => (List.not_mem_nil hpair).elim,
      Or.inr (Or.inr fun _ hpair => (List.not_mem_nil hpair).elim), trivial⟩
  have hsafe : Safe (run Machine.step (.start directory) steps) :=
    (hundegraded.and hmeets).invariant hstart
      fun _ _ hguard hsafe => hsafe.step hguard.1 hguard.2
  exact CallsFenced.wokenAtMostOnce (hsafe.elim Guarded.fenced Inert.fenced)

end Runs

section Examples

instance (registry : Registry) : Decidable registry.Blank :=
  inferInstanceAs (Decidable (_ ∧ _))

instance (machine : Machine) (first : Step) : Decidable (Undegraded machine first) :=
  inferInstanceAs (Decidable (_ ∧ _))

instance (machine : Machine) (first : Step) : Decidable (Meets machine first) :=
  inferInstanceAs (Decidable (_ ∧ (_ → _ → _)))

/-- A restart and the release of the delivery lie between two wakes. -/
def releasedRun : List Step :=
  [registering "first", waking "first" "delivery", undisturbed .restart,
    waking "first" "delivery", undisturbed (.releaseDelivery "delivery"),
    undisturbed (.hooks [intentFile "first"]), registering "first", waking "first" "later"]

theorem woken_at_most_once_released :
    Along Machine.step Undegraded (.start twoSessions) releasedRun ∧
      Along Machine.step Meets (.start twoSessions) releasedRun ∧
      WokenAtMostOnce (run Machine.step (.start twoSessions) releasedRun).history :=
  have hundegraded : Along Machine.step Undegraded (.start twoSessions) releasedRun := by decide
  have hmeets : Along Machine.step Meets (.start twoSessions) releasedRun := by decide
  ⟨hundegraded, hmeets, woken_at_most_once twoSessions releasedRun hundegraded hmeets⟩

/-- The process stops in the quarantine for another session, after the
capability file was moved away and before the directory was marked. -/
def quarantinedRun : List Step :=
  [registering "first", registering "second", waking "first" "delivery",
    ⟨.markBusy (session "second"), quietSurroundings, [.fails, .done, .stops]⟩,
    undisturbed (.hooks [intentFile "first"]), registering "first", waking "first" "later"]

theorem woken_at_most_once_quarantined :
    Along Machine.step Undegraded (.start twoSessions) quarantinedRun ∧
      ¬WokenAtMostOnce (run Machine.step (.start twoSessions) quarantinedRun).history := by
  refine ⟨by decide, fun honce => ?_⟩
  have hreleased := honce [.kept (some endpoint) (some "later")] []
    [.called (some endpoint)] endpoint "delivery" (by decide)
  exact List.not_mem_nil hreleased

end Examples

end Pallium.ClaudeWake
