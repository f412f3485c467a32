import Pallium.Snapshot.Restore

/-!
# Histories of snapshots and restores

Calls of `create_snapshot`, `prune_old_snapshots` and `restore_snapshot` follow each other in any
order, each with whatever happens to its operations, and between them others do with the live
databases what they like.  As long as pruning keeps one generation, the newest is complete.  So a
restore that meets no database and no fault yields the newest pair, and one that meets a pair
leaves it alone.  What a disturbed restore leaves behind is decided by the moment at which the
main database is put in place.
-/

namespace Pallium.Snapshot

open Interrupted Program

/-- One step of a history. -/
inductive Step
  | create (schedule : Schedule)
  | prune (keep : ℕ) (hkeep : 0 < keep) (schedule : Schedule)
  | restore (schedule : Schedule)
  /-- Others make, write or remove databases. -/
  | outside (live : Role → Option Stamped) (wal : Role → Option ℕ) (shm : Role → Bool)

def Step.apply (files : Files) : Step → Files
  | create schedule => (createSnapshot schedule files).state
  | prune keep _ schedule => (pruneOldSnapshots keep schedule files).state
  | restore schedule => (restoreSnapshot schedule files).state
  | outside live wal shm => { files.tick with live := live, wal := wal, shm := shm }

def runHistory (start : Files) (steps : List Step) : Files := steps.foldl Step.apply start

theorem regime_valid : Regime (fun _ => True) fun _ file _ => file.image.valid = true where
  live := ⟨fun _ _ h => h, fun _ h => h, fun _ _ h => h, fun _ _ _ _ _ h => h⟩
  copies _ _ := ⟨fun _ _ h => h, fun _ h => h, fun _ _ h => h, fun _ _ _ _ _ h => h⟩
  backup _ database _ _ _ := Image.valid_backup database.image

/-- The directory between two calls: sound, and with both copies of the newest generation. -/
structure Published (files : Files) : Prop where
  shelved : Shelved (fun _ => True) (fun _ file _ => file.image.valid = true) files
  complete : ∀ marker, files.Newest marker → files.Complete marker.name

section Invariant

variable {schedule : Schedule} {start files : Files}

section

variable (hpublished : Published start)
include hpublished

theorem Published.of_sameShelf (hsame : SameShelf start files) :
    Published files where
  shelved :=
    { holds := trivial
      named := hsame.markers ▸ hpublished.shelved.named
      past := fun marker hmarker =>
        (hpublished.shelved.past marker (hsame.markers ▸ hmarker)).trans_le hsame.clock
      sound := fun generation role file hcopy =>
        hpublished.shelved.sound generation role file
          ((hsame.copyOf generation role).symm.trans hcopy) }
  complete marker hmarker role := by
    rw [hsame.copyOf]
    exact hpublished.complete marker (hsame.newest.mp hmarker) role

/-- A call of `create_snapshot` that publishes nothing leaves the newest generation alone. -/
theorem Published.underway
    (hunderway : Underway (fun _ => True) (fun _ file _ => file.image.valid = true) schedule start
      start.clock [] [] files) : Published files where
  shelved := hunderway.shelved hpublished.shelved.named fun marker hmarker =>
    (hpublished.shelved.past marker hmarker).le
  complete marker hmarker role := by
    rw [Files.Newest, hunderway.markers] at hmarker
    rw [hunderway.others _ (hpublished.shelved.past marker hmarker.1).ne]
    exact hpublished.complete marker hmarker role

theorem newest_of_published {name time : ℕ}
    (hname : name = start.clock)
    (hunderway : Underway (fun _ => True) (fun _ file _ => file.image.valid = true) schedule
      (start.withMarker ⟨name, ⟨some name, time⟩⟩) name [] [.relay, .main] files) :
    files.Newest ⟨name, ⟨some name, time⟩⟩ := by
  subst hname
  rw [Files.Newest, hunderway.markers]
  exact newest_withMarker hpublished.shelved

/-- The directory is published, and not emptied. -/
def Goes (start now : Files) : Prop :=
  Published now ∧ (start.markers.rows ≠ [] → now.markers.rows ≠ [])

theorem Published.create :
    Ends schedule createSnapshot start
      (fun result now => Goes start now ∧ ∀ name, result = .ok name → now.markers.rows ≠ [])
      fun _ => Goes start := by
  refine (createSnapshot_ends regime_valid trivial hpublished.shelved.sound).mono ?_
    fun _ now hnow => ⟨hpublished.underway hnow, fun hne => hnow.markers ▸ hne⟩
  rintro (error | name) now hnow
  · exact ⟨⟨hpublished.underway hnow.1, fun hne => hnow.1.markers ▸ hne⟩,
      fun _ herror => nomatch herror⟩
  · obtain ⟨hname, time, hunderway⟩ := hnow
    have hnewest := newest_of_published hpublished hname hunderway
    have hne : now.markers.rows ≠ [] := fun hnil => List.not_mem_nil (hnil ▸ hnewest.1)
    refine ⟨⟨⟨hpublished.shelved.published hname hunderway, fun marker hmarker role => ?_⟩,
      fun _ => hne⟩, fun _ _ => hne⟩
    obtain rfl := hmarker.eq hnewest
    obtain ⟨file, hcopy, hvalid, -⟩ := hunderway.published role (by cases role <;> decide)
    exact ⟨file, hcopy, hvalid⟩

theorem Published.thinned {keep : ℕ} (hkeep : 0 < keep)
    (hthinned : Thinned schedule (start.Spared keep) start files) : Goes start files := by
  have hmem : ∀ {marker : Marker}, marker ∈ files.markers.rows → marker ∈ start.markers.rows :=
    fun hmarker => Table.mem_of_get (hthinned.markers _ _ (Table.get_of_mem hmarker))
  have hstays : ∀ {marker : Marker}, start.Newest marker → files.Newest marker := by
    intro marker hnewest
    have hkept := (hthinned.kept marker.name ⟨hkeep.ne', marker, hnewest, rfl⟩).1
    refine ⟨Table.mem_of_get (hkept.trans (Table.get_of_mem hnewest.1)), fun other hother => ?_⟩
    exact hnewest.2 other (hmem hother)
  rcases start.listManifests_cases with ⟨hnil, -⟩ | ⟨first, -, -, hfirst, -⟩
  · refine ⟨⟨hpublished.shelved.thinned regime_valid hthinned, fun marker hmarker => ?_⟩,
      fun hne => absurd hnil hne⟩
    exact absurd (hnil ▸ hmem hmarker.1) List.not_mem_nil
  · refine ⟨⟨hpublished.shelved.thinned regime_valid hthinned, fun marker hmarker role => ?_⟩,
      fun _ hnil => ?_⟩
    · obtain rfl := hmarker.eq (hstays hfirst)
      rw [(hthinned.kept marker.name ⟨hkeep.ne', marker, hfirst, rfl⟩).2]
      exact hpublished.complete marker hfirst role
    · exact List.not_mem_nil (hnil ▸ (hstays hfirst).1)

end

theorem Published.step (hpublished : Published files) (step : Step) :
    Goes files (step.apply files) := by
  cases step with
  | create schedule =>
    exact (hpublished.create.mono (fun _ _ hnow => hnow.1) fun _ _ hnow => hnow).holds
  | prune keep hkeep schedule =>
    have hpruned : Ends schedule (pruneOldSnapshots keep) files
        (fun _ => Thinned schedule (files.Spared keep) files)
        fun _ => Thinned schedule (files.Spared keep) files := by
      refine (pruneOldSnapshots_ends hpublished.shelved.readable keep).mono ?_
        fun _ _ hstop => hstop
      rintro (error | value) now hnow
      · exact hnow.1
      · exact hnow.1
    exact hpublished.thinned hkeep hpruned.holds
  | restore schedule =>
    have hsame := sameShelf_restore schedule files
    exact ⟨hpublished.of_sameShelf hsame, fun hne hnil => hne (hsame.markers ▸ hnil)⟩
  | outside live wal shm =>
    exact ⟨hpublished.of_sameShelf ⟨Nat.le_succ _, rfl, rfl⟩, fun hne => hne⟩

theorem published_runHistory (hpublished : Published start) (steps : List Step) :
    Goes start (runHistory start steps) := by
  induction steps generalizing start with
  | nil => exact ⟨hpublished, fun hne => hne⟩
  | cons step rest ih =>
    obtain ⟨hnext, hstep⟩ := hpublished.step step
    obtain ⟨hend, hrest⟩ := ih hnext
    exact ⟨hend, fun hne => hrest (hstep hne)⟩

/-- After a call of `create_snapshot` that has returned, there is a newest manifest. -/
theorem exists_newest_of_returned (hpublished : Published start) {prior later : List Step}
    {name : ℕ}
    (hreturned : (createSnapshot schedule (runHistory start prior)).value? = some name) :
    ∃ marker, (runHistory start (prior ++ .create schedule :: later)).Newest marker := by
  have hprior := (published_runHistory hpublished prior).1
  have hcreated : ∀ found, (createSnapshot schedule (runHistory start prior)).value? = some found →
      ((createSnapshot schedule (runHistory start prior)).state).markers.rows ≠ [] := by
    intro found hfound
    have hends : Ends schedule createSnapshot (runHistory start prior) _ _ := hprior.create
    unfold Ends at hends
    cases hcase : createSnapshot schedule (runHistory start prior) with
    | returned result now =>
      rw [hcase] at hends hfound
      cases result with
      | ok value => exact hends.2 value rfl
      | error error => exact nomatch hfound
    | stopped site now =>
      rw [hcase] at hfound
      exact nomatch hfound
  have hlater := published_runHistory (hprior.step (.create schedule)).1 later
  have hne := hlater.2 (hcreated name hreturned)
  rw [runHistory, List.foldl_append, List.foldl_cons]
  rcases (runHistory (Step.apply (runHistory start prior) (.create schedule))
      later).listManifests_cases with
    ⟨hnil, -⟩ | ⟨marker, -, -, hmarker, -⟩
  · exact absurd hnil hne
  · exact ⟨marker, hmarker⟩

end Invariant

section Restored

variable {faults : Site → Faults.Fault} {files : Files}

variable {marker : Marker}

theorem undisturbed_of_faultless (hfaultless : ∀ site, faults site = .done) (files : Files) :
    Undisturbed faults files where
  window marker _ _ := ⟨hfaultless _, hfaultless _, hfaultless _, Or.inl (hfaultless _)⟩
  older marker _ hfails := by
    obtain ⟨site, -, hsite⟩ := hfails
    exact nomatch hsite.symm.trans (hfaultless site)

theorem restore_newest (hpublished : Published files) (hnewest : files.Newest marker)
    (hnone : ∀ role, files.live role = none) :
    ∃ after, restoreSnapshot calm files = .returned (.ok true) after ∧
      after.Newest marker ∧ after.HoldsPair marker.name := by
  obtain ⟨result, after, hreturned, hsettled, hresult⟩ :=
    (restoreSnapshot_ends hnewest hpublished.shelved.named (hpublished.complete marker hnewest)
      hnone (undisturbed_of_faultless (fun _ => rfl) files)).returns honest_restoreSnapshot
      faultless_calm
  rcases result with error | _ | _
  · exact absurd faultless_calm hresult
  · exact absurd faultless_calm hresult
  · exact ⟨after, hreturned, hresult.shelf.newest.mpr hnewest, hresult.holdsPair⟩

theorem restore_pair (hlive : ∀ role, files.live role ≠ none) :
    ∃ after, restoreSnapshot calm files = .returned (.ok false) after ∧ Untouched files after := by
  obtain ⟨result, after, hreturned, huntouched, -, hresult⟩ :=
    (restoreSnapshot_of_pair hlive).returns honest_restoreSnapshot faultless_calm
  rcases hresult with rfl | hfaulty
  · exact ⟨after, hreturned, huntouched⟩
  · exact absurd faultless_calm hfaulty

theorem settled_restore (hpublished : Published files) (hnewest : files.Newest marker)
    (hnone : ∀ role, files.live role = none) (hundisturbed : Undisturbed faults files) :
    Settled faults files marker.name (restoreSnapshot (alone faults) files).state :=
  Ends.holds ((restoreSnapshot_ends hnewest hpublished.shelved.named
    (hpublished.complete marker hnewest) hnone hundisturbed).mono (fun _ _ hnow => hnow.1)
    fun _ _ hnow => hnow)

theorem later_restore (hpublished : Published files) (hnewest : files.Newest marker)
    (hnone : ∀ role, files.live role = none) {now : Files}
    (hsettled : Settled faults files marker.name now) :
    ∃ restored after, restoreSnapshot calm now = .returned (.ok restored) after ∧
      after.Newest marker ∧ after.HoldsPair marker.name := by
  rcases hsettled with huntouched | ⟨-, hlanded⟩
  · have hnow : ∀ role, now.live role = none := fun role => huntouched.live ▸ hnone role
    obtain ⟨after, hreturned, hafter⟩ := restore_newest
      (hpublished.of_sameShelf huntouched.shelf) (huntouched.shelf.newest.mpr hnewest) hnow
    exact ⟨true, after, hreturned, hafter⟩
  · have hlive : ∀ role, now.live role ≠ none := fun role => by
      obtain ⟨file, -, hfile, -⟩ := hlanded.pair role
      exact hfile ▸ Option.some_ne_none file
    obtain ⟨after, hreturned, hafter⟩ := restore_pair hlive
    refine ⟨false, after, hreturned,
      hafter.shelf.newest.mpr (hlanded.shelf.newest.mpr hnewest), fun role => ?_⟩
    obtain ⟨file, hcopy, hfile, hwal⟩ := hlanded.holdsPair role
    rw [hafter.shelf.copyOf, hafter.live, hafter.wal]
    exact ⟨file, hcopy, hfile, hwal⟩

theorem validate_of_settled (hnone : ∀ role, files.live role = none) {now : Files}
    (hsettled : Settled faults files marker.name now) :
    validateRelayDatabasePair now = .ok () := by
  unfold validateRelayDatabasePair
  rcases hsettled with huntouched | ⟨-, hlanded⟩
  · rw [huntouched.live, hnone, hnone]
    rfl
  · obtain ⟨main, -, hmain, -⟩ := hlanded.pair .main
    obtain ⟨relay, -, hrelay, -⟩ := hlanded.pair .relay
    rw [hmain, hrelay]
    rfl

end Restored

section Main

/-- A directory in which nothing has been published yet. -/
structure Unpublished (files : Files) : Prop where
  markers : files.markers.rows = []
  finals : files.finals.rows = []

theorem Unpublished.published {files : Files} (hunpublished : Unpublished files) :
    Published files where
  shelved :=
    { holds := trivial
      named := fun marker hmarker => absurd (hunpublished.markers ▸ hmarker) List.not_mem_nil
      past := fun marker hmarker => absurd (hunpublished.markers ▸ hmarker) List.not_mem_nil
      sound := fun generation role file hcopy => by
        obtain ⟨copy, hget, -⟩ := Option.map_eq_some_iff.mp hcopy
        exact absurd (hunpublished.finals ▸ Table.mem_of_get hget) List.not_mem_nil }
  complete marker hmarker := absurd (hunpublished.markers ▸ hmarker.1) List.not_mem_nil

/-- In every state of every history: once a generation has been published, a restore that meets
no database and no fault yields the newest pair; a restore that meets a pair leaves it as it is;
and a restore that meets no database and is not disturbed in its window leaves both databases or
neither, from which a later one goes on to the newest pair. -/
theorem snapshots_restore (start : Files) (hstart : Unpublished start) (steps : List Step) :
    (∀ prior schedule later name, steps = prior ++ .create schedule :: later →
      (createSnapshot schedule (runHistory start prior)).value? = some name →
      (∀ role, (runHistory start steps).live role = none) →
      ∃ marker after, (runHistory start steps).Newest marker ∧
        restoreSnapshot calm (runHistory start steps) = .returned (.ok true) after ∧
        after.Newest marker ∧ after.HoldsPair marker.name) ∧
    (∀ faults, (∀ role, (runHistory start steps).live role ≠ none) →
      (restoreSnapshot (alone faults) (runHistory start steps)).state.live =
          (runHistory start steps).live ∧
        (restoreSnapshot (alone faults) (runHistory start steps)).state.wal =
          (runHistory start steps).wal ∧
        (restoreSnapshot (alone faults) (runHistory start steps)).state.shm =
          (runHistory start steps).shm) ∧
    (∀ faults, (∀ role, (runHistory start steps).live role = none) →
      Undisturbed faults (runHistory start steps) →
      validateRelayDatabasePair
          (restoreSnapshot (alone faults) (runHistory start steps)).state = .ok () ∧
        ∀ marker, (runHistory start steps).Newest marker →
          ∃ restored after, restoreSnapshot calm
              (restoreSnapshot (alone faults) (runHistory start steps)).state =
                .returned (.ok restored) after ∧
            after.Newest marker ∧ after.HoldsPair marker.name) := by
  have hpublished := (published_runHistory hstart.published steps).1
  refine ⟨?_, fun faults hlive => ?_, fun faults hnone hundisturbed => ⟨?_, ?_⟩⟩
  · rintro prior schedule later name rfl hreturned hnone
    obtain ⟨marker, hnewest⟩ := exists_newest_of_returned hstart.published hreturned
    obtain ⟨after, hrestored, hafter⟩ := restore_newest hpublished hnewest hnone
    exact ⟨marker, after, hnewest, hrestored, hafter⟩
  · obtain ⟨huntouched, hshm⟩ := Ends.holds ((@restoreSnapshot_of_pair faults _ hlive).mono
      (fun _ _ hnow => ⟨hnow.1, hnow.2.1⟩) fun _ _ hnow => hnow)
    exact ⟨huntouched.live, huntouched.wal, hshm⟩
  · rcases (runHistory start steps).listManifests_cases with
      ⟨hnil, -⟩ | ⟨marker, -, -, hnewest, -⟩
    · have huntouched := @restoreSnapshot_unpublished faults _ hnone hnil
      rw [validateRelayDatabasePair, huntouched.live, hnone, hnone]
      rfl
    · exact validate_of_settled hnone (settled_restore hpublished hnewest hnone hundisturbed)
  · intro marker hnewest
    exact later_restore hpublished hnewest hnone
      (settled_restore hpublished hnewest hnone hundisturbed)

theorem unpublished_newPair : Unpublished newPair := ⟨rfl, rfl⟩

/-- A generation is published and the databases are lost. -/
def lostPair : List Step :=
  [.create calm, .outside (fun _ => none) (fun _ => none) fun _ => false]

/-- A lost pair is restored, and a restored one is left alone. -/
theorem snapshots_restore_lostPair :
    (∃ marker after, (runHistory newPair lostPair).Newest marker ∧
        restoreSnapshot calm (runHistory newPair lostPair) = .returned (.ok true) after ∧
        after.Newest marker ∧ after.HoldsPair marker.name) ∧
      (restoreSnapshot (alone fun _ => .fails) (runHistory newPair [])).state.live =
        newPair.live ∧
      validateRelayDatabasePair
        (restoreSnapshot (alone fun _ => .done) (runHistory newPair lostPair)).state = .ok () := by
  have hname : (createSnapshot calm newPair).value? = some 1 := by decide +kernel
  refine ⟨?_, ?_, ?_⟩
  · exact (snapshots_restore newPair unpublished_newPair lostPair).1 [] calm _ 1 rfl hname
      fun _ => rfl
  · exact ((snapshots_restore newPair unpublished_newPair []).2.1 (fun _ => .fails)
      fun _ => Option.some_ne_none _).1
  · exact ((snapshots_restore newPair unpublished_newPair lostPair).2.2 (fun _ => .done)
      (fun _ => rfl) (undisturbed_of_faultless (fun _ => rfl) _)).1

/-- The process stops between the two databases. -/
def stopsBetween : Site → Faults.Fault := fun site =>
  if site = .place 1 .relay then .stops else .done

/-- The main database is there without the other: the next start is refused, and so is the next
restore. -/
theorem stopsBetween_refused :
    (∀ role, (runHistory newPair lostPair).live role = none) ∧
      validateRelayDatabasePair
          (restoreSnapshot (alone stopsBetween) (runHistory newPair lostPair)).state =
        .error (.runtimeError "partial live database pair; refusing startup") ∧
      (restoreSnapshot calm
        (restoreSnapshot (alone stopsBetween) (runHistory newPair lostPair)).state).value? =
          none := by
  refine ⟨fun _ => rfl, ?_, ?_⟩
  · decide +kernel
  · decide +kernel

end Main

end Pallium.Snapshot
