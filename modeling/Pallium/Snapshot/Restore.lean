import Pallium.Snapshot.Shelf

/-!
# Restoring a pair

`restore_snapshot` does something only where neither database is there.  It goes through the
manifests, newest first, stages the pair that one names and puts it in place, one database after
the other; an `OSError` on the way sends it to the next manifest.  Up to the first replacement
it only stages.  From there to the second replacement one database is there without the other,
and a fault leaves it there.
-/

namespace Pallium.Snapshot

open Interrupted Program

namespace Files

def setStaged (role : Role) (file : Option Stamped) (files : Files) : Files :=
  { files with staged := Function.update files.staged role file }

/-- `shutil.copyfile` into the opened file. -/
def stage (generation : ℕ) (role : Role) (files : Files) : Option Files :=
  (files.copyOf generation role).map fun file =>
    files.setStaged role (some ⟨file.image, files.clock⟩)

/-- `shutil.copystat`. -/
def stampStaged (generation : ℕ) (role : Role) (files : Files) : Option Files :=
  (files.copyOf generation role).map fun file => files.setStaged role (some file)

/-- `os.replace(staged[role], target_path)`. -/
def place (role : Role) (files : Files) : Option Files :=
  (files.staged role).map fun file =>
    { files.setStaged role none with live := Function.update files.live role (some file) }

def unlinkWal (role : Role) (files : Files) : Files :=
  { files with wal := Function.update files.wal role none }

def unlinkShm (role : Role) (files : Files) : Files :=
  { files with shm := Function.update files.shm role false }

end Files

section Source

/-- One round of the staging loop; `shutil.copy2` copies the content and then the times. -/
def stageRole (name generation : ℕ) (role : Role) : Action Unit := do
  update (.makeParent name role) .osError fun files => some files
  update (.openStaged name role) .osError fun files =>
    some (files.setStaged role (some ⟨.blank, files.clock⟩))
  update (.stage name role) .osError (Files.stage generation role)
  update (.stampStaged name role) .osError (Files.stampStaged generation role)
  let sound ← validateSnapshot (.validateStaged name role) fun files => files.staged role
  if sound then pure ()
  else raise (.runtimeError ("restored snapshot validation failed for " ++ role.name))

/-- One round of the replacing loop. -/
def placeRole (name : ℕ) (role : Role) : Action Unit := do
  update (.place name role) .osError (Files.place role)
  update (.unlinkWal name role) .osError fun files => some (files.unlinkWal role)
  update (.unlinkShm name role) .osError fun files => some (files.unlinkShm role)

/-- `all(_validate_snapshot(p) for p in pair.values())`. -/
def validatePair (name generation : ℕ) : Action Bool := do
  let main ← validateSnapshot (.validateCopy name .main) fun files => files.copyOf generation .main
  if main then
    validateSnapshot (.validateCopy name .relay) fun files => files.copyOf generation .relay
  else pure false

/-- The pair of a generation is staged and put in place; what is still staged is removed on any
error. -/
def install (name generation : ℕ) : Action Bool :=
  handle
    (do
      eachRole (stageRole name generation)
      eachRole (placeRole name)
      pure true)
    fun error => do
      eachRole fun role => update (.unlinkStaged name role) .osError fun files =>
        some (files.setStaged role none)
      raise error

/-- The body of the loop over the manifests: whether the generation was restored. -/
def attempt (marker : Marker) : Action Bool := do
  let generation ← readGeneration (.readMarker marker.name) marker.name
  let sound ← validatePair marker.name generation
  if sound then install marker.name generation else pure false

def restoreFrom : List Marker → Action Bool
  | [] => pure false
  | marker :: older => do
    let restored ← handle (attempt marker) fun error =>
      if error.skipped then pure false else raise error
    if restored then pure true else restoreFrom older

/-- `restore_snapshot` of the pair. -/
def restoreSnapshot : Action Bool := do
  let main ← inspect (.findLive .main) .osError fun files => some (files.live .main).isSome
  let relay ← inspect (.findLive .relay) .osError fun files => some (files.live .relay).isSome
  if main && relay then pure false
  else if main || relay then
    raise (.runtimeError "partial live database pair; refusing snapshot restore")
  else do
    let markers ← inspect .globMarkers .osError fun files => some files.listManifests
    restoreFrom markers

/-- `_validate_relay_database_pair`, as far as the files decide it. -/
def validateRelayDatabasePair (files : Files) : Except Raised Unit :=
  if (files.live .main).isSome ≠ (files.live .relay).isSome then
    .error (.runtimeError "partial live database pair; refusing startup")
  else .ok ()

end Source

section Frame

variable {schedule : Schedule} {invariant : Files → Prop} {start files : Files}

/-- The directory is as it was. -/
structure SameShelf (start files : Files) : Prop where
  clock : start.clock ≤ files.clock
  markers : files.markers = start.markers
  finals : files.finals = start.finals

theorem SameShelf.refl (files : Files) : SameShelf files files := ⟨le_rfl, rfl, rfl⟩

theorem SameShelf.reached (hsame : SameShelf start files) (turn : Turn Event) :
    SameShelf start (reach turn files) :=
  ⟨hsame.clock.trans (clock_lt_reach _ _).le, (markers_reach _ _).trans hsame.markers,
    (finals_reach _ _).trans hsame.finals⟩

theorem SameShelf.copyOf (hsame : SameShelf start files) (generation : ℕ) (role : Role) :
    files.copyOf generation role = start.copyOf generation role := by
  rw [Files.copyOf, hsame.finals, Files.copyOf]

theorem SameShelf.newest (hsame : SameShelf start files) {marker : Marker} :
    files.Newest marker ↔ start.Newest marker := by
  rw [Files.Newest, hsame.markers, Files.Newest]

section

variable (hreach : ∀ site files, invariant files → invariant (reach (schedule site) files))
include hreach

theorem keeps_stageRole
    (hstaged : ∀ role file files, invariant files → invariant (files.setStaged role file))
    (name generation : ℕ) (role : Role) :
    Keeps schedule invariant (stageRole name generation role) := by
  unfold stageRole
  refine keeps_bind (keeps_update hreach _ _ fun files after hfiles hafter => ?_) fun _ =>
    keeps_bind (keeps_update hreach _ _ fun files after hfiles hafter => ?_) fun _ =>
    keeps_bind (keeps_update hreach _ _ fun files after hfiles hafter => ?_) fun _ =>
    keeps_bind (keeps_update hreach _ _ fun files after hfiles hafter => ?_) fun _ =>
    keeps_bind (keeps_validateSnapshot hreach _ _) fun sound => ?_
  · cases hafter
    exact hfiles
  · cases hafter
    exact hstaged _ _ _ hfiles
  · obtain ⟨file, -, rfl⟩ := Option.map_eq_some_iff.mp hafter
    exact hstaged _ _ _ hfiles
  · obtain ⟨file, -, rfl⟩ := Option.map_eq_some_iff.mp hafter
    exact hstaged _ _ _ hfiles
  · split
    · exact keeps_pure _
    · exact keeps_raise _

theorem keeps_readGeneration
    (site : Site) (name : ℕ) : Keeps schedule invariant (readGeneration site name) := by
  unfold readGeneration
  refine keeps_bind (keeps_inspect hreach _ _ _) fun manifest => ?_
  cases manifest.generation with
  | none => exact keeps_raise _
  | some generation => exact keeps_pure _

theorem keeps_validatePair
    (name generation : ℕ) : Keeps schedule invariant (validatePair name generation) := by
  unfold validatePair
  refine keeps_bind (keeps_validateSnapshot hreach _ _) fun main => ?_
  split
  · exact keeps_validateSnapshot hreach _ _
  · exact keeps_pure _

/-- What staging and replacing keep is kept by a restore. -/
theorem keeps_restoreSnapshot
    (hstaged : ∀ role file files, invariant files → invariant (files.setStaged role file))
    (hplace : ∀ role files after, invariant files → files.place role = some after →
      invariant after)
    (hwal : ∀ role files, invariant files → invariant (files.unlinkWal role))
    (hshm : ∀ role files, invariant files → invariant (files.unlinkShm role)) :
    Keeps schedule invariant restoreSnapshot := by
  have hinstall : ∀ name generation, Keeps schedule invariant (install name generation) := by
    intro name generation
    unfold install
    refine keeps_handle (keeps_bind (keeps_eachRole fun role =>
      keeps_stageRole hreach hstaged name generation role) fun _ =>
      keeps_bind (keeps_eachRole fun role => ?_) fun _ => keeps_pure _) fun error => ?_
    · unfold placeRole
      refine keeps_bind (keeps_update hreach _ _ fun files after => hplace role files after)
        fun _ => keeps_bind (keeps_update hreach _ _ fun files after hfiles hafter => ?_)
        fun _ => keeps_update hreach _ _ fun files after hfiles hafter => ?_
      · cases hafter
        exact hwal role files hfiles
      · cases hafter
        exact hshm role files hfiles
    · refine keeps_bind (keeps_eachRole fun role => keeps_update hreach _ _
        fun files after hfiles hafter => ?_) fun _ => keeps_raise _
      cases hafter
      exact hstaged role none files hfiles
  have hfrom : ∀ markers, Keeps schedule invariant (restoreFrom markers) := by
    intro markers
    induction markers with
    | nil => exact keeps_pure _
    | cons marker older ih =>
      unfold restoreFrom
      refine keeps_bind (keeps_handle ?_ fun error => ?_) fun restored => ?_
      · unfold attempt
        refine keeps_bind (keeps_readGeneration hreach _ _) fun generation =>
          keeps_bind (keeps_validatePair hreach _ _) fun sound => ?_
        split
        · exact hinstall _ _
        · exact keeps_pure _
      · split
        · exact keeps_pure _
        · exact keeps_raise _
      · split
        · exact keeps_pure _
        · exact ih
  unfold restoreSnapshot
  refine keeps_bind (keeps_inspect hreach _ _ _) fun main =>
    keeps_bind (keeps_inspect hreach _ _ _) fun relay => ?_
  split
  · exact keeps_pure _
  · split
    · exact keeps_raise _
    · exact keeps_bind (keeps_inspect hreach _ _ _) fun markers => hfrom markers

end

theorem sameShelf_restore (schedule : Schedule) (start : Files) :
    SameShelf start (restoreSnapshot schedule start).state := by
  refine Ends.holds (keeps_restoreSnapshot (fun site files hsame => hsame.reached _)
    (fun role file files hsame => ⟨hsame.clock, hsame.markers, hsame.finals⟩) ?_
    (fun role files hsame => ⟨hsame.clock, hsame.markers, hsame.finals⟩)
    (fun role files hsame => ⟨hsame.clock, hsame.markers, hsame.finals⟩) start
    (SameShelf.refl start))
  intro role files after hsame hplace
  obtain ⟨file, -, rfl⟩ := Option.map_eq_some_iff.mp hplace
  exact ⟨hsame.clock, hsame.markers, hsame.finals⟩

end Frame

/-- The generation that an operation works on, if its failure sends a restore on to the next one.
That of a validation of a staged file ends the restore. -/
def Site.restored : Site → Option ℕ
  | .readMarker name => some name
  | .validateCopy name _ => some name
  | .makeParent name _ => some name
  | .openStaged name _ => some name
  | .stage name _ => some name
  | .stampStaged name _ => some name
  | .place name _ => some name
  | .unlinkWal name _ => some name
  | .unlinkShm name _ => some name
  | .unlinkStaged name _ => some name
  | _ => none

section Fates

variable (faults : Site → Faults.Fault) (files : Files) (name : ℕ)

/-- Some operation on the generation fails. -/
def Fails : Prop := ∃ site : Site, site.restored = some name ∧ faults site = .fails

/-- An error comes from a failed operation, and one that sends the restore on from one that does. -/
def Blames (error : Raised) : Prop :=
  Fails faults name ∨ error.skipped = false ∧ ∃ site, faults site = .fails

/-- Staging one database of the generation succeeds. -/
def Stages (role : Role) : Prop :=
  faults (.makeParent name role) = .done ∧ faults (.openStaged name role) = .done ∧
    faults (.stage name role) = .done ∧ faults (.stampStaged name role) = .done ∧
    faults (.validateStaged name role) = .done

/-- Both copies of the generation are there and sound. -/
def Files.Complete : Prop :=
  ∀ role, ∃ file, files.copyOf name role = some file ∧ file.image.valid = true

/-- A restore that tries the generation puts its main database in place. -/
def Places : Prop :=
  files.Complete name ∧ faults (.readMarker name) = .done ∧
    (∀ role, faults (.validateCopy name role) = .done ∧ Stages faults name role) ∧
    faults (.place name .main) = .done

/-- From the main database on nothing happens to the operations that put the pair in place; a
write-ahead log of the Relay database must go only if there is one. -/
def Window : Prop :=
  faults (.unlinkWal name .main) = .done ∧ faults (.unlinkShm name .main) = .done ∧
    faults (.place name .relay) = .done ∧
    (faults (.unlinkWal name .relay) = .done ∨ files.wal .relay = none)

end Fates

/-- The live databases are the pair of a generation. -/
def Files.HoldsPair (files : Files) (name : ℕ) : Prop :=
  ∀ role, ∃ file, files.copyOf name role = some file ∧ files.live role = some file ∧
    files.wal role = none

section Attempt

variable {faults : Site → Faults.Fault} {origin files : Files} {name : ℕ}

variable {site : Site}

/-- Only staged files have changed. -/
structure Untouched (origin files : Files) : Prop where
  shelf : SameShelf origin files
  live : files.live = origin.live
  wal : files.wal = origin.wal

theorem Untouched.refl (files : Files) : Untouched files files := ⟨SameShelf.refl files, rfl, rfl⟩

theorem reach_alone (faults : Site → Faults.Fault) (site : Site) :
    reach (alone faults site) files = files.tick :=
  (quiet_alone faults).reach site files

theorem Untouched.tick (huntouched : Untouched origin files) : Untouched origin files.tick :=
  ⟨⟨huntouched.shelf.clock.trans (Nat.le_succ _), huntouched.shelf.markers,
    huntouched.shelf.finals⟩, huntouched.live, huntouched.wal⟩

theorem Untouched.reached (huntouched : Untouched origin files) (faults : Site → Faults.Fault)
    (site : Site) :
    Untouched origin (reach (alone faults site) files) :=
  reach_alone faults site ▸ huntouched.tick

theorem Untouched.setStaged (huntouched : Untouched origin files) (role : Role)
    (file : Option Stamped) : Untouched origin (files.setStaged role file) :=
  ⟨⟨huntouched.shelf.clock, huntouched.shelf.markers, huntouched.shelf.finals⟩, huntouched.live,
    huntouched.wal⟩

/-- Some roles are staged as the generation has them. -/
def StagedAs (origin : Files) (name : ℕ) (roles : List Role) (files : Files) : Prop :=
  ∀ role ∈ roles, files.staged role = origin.copyOf name role

/-- How a part of an attempt ends that has not touched the live files. -/
def Prepares {α : Type} (faults : Site → Faults.Fault) (origin : Files) (name : ℕ)
    (reached : α → Files → Prop) (result : Except Raised α) (now : Files) : Prop :=
  Untouched origin now ∧ match result with
    | .ok value => reached value now
    | .error error => Blames faults name error

theorem Prepares.bind {α β : Type} {first : Action α} {next : α → Action β}
    (reached : α → Files → Prop) {final : β → Files → Prop}
    (hfirst : Ends (alone faults) first files (Prepares faults origin name reached)
      fun _ => Untouched origin)
    (hnext : ∀ value now, Untouched origin now → reached value now →
      Ends (alone faults) (next value) now (Prepares faults origin name final)
        fun _ => Untouched origin) :
    Ends (alone faults) (first >>= next) files (Prepares faults origin name final)
      fun _ => Untouched origin :=
  Ends.bind _ hfirst (fun value now hnow => hnext value now hnow.1 hnow.2) fun _ _ herror => herror

/-- A write to the staged files. -/
theorem update_prepares {effect : Files → Option Files} {reached : Unit → Files → Prop}
    (hsite : site.restored = some name) (huntouched : Untouched origin files)
    (hdone : faults site = .done → ∃ after, effect files.tick = some after ∧
      Untouched origin after ∧ reached () after) :
    Ends (alone faults) (update site .osError effect) files
      (Prepares faults origin name reached) fun _ => Untouched origin := by
  have hreached := huntouched.reached faults site
  refine Ends.update (fun hfault after hafter => ?_) (fun hfault hnone => ?_)
    (fun hfault => ⟨hreached, Or.inl ⟨site, hsite, hfault⟩⟩) fun _ => hreached
  · obtain ⟨found, hfound, hsame, hgoal⟩ := hdone hfault
    rw [reach_alone, hfound] at hafter
    cases hafter
    exact ⟨hsame, hgoal⟩
  · obtain ⟨found, hfound, -⟩ := hdone hfault
    rw [reach_alone, hfound] at hnone
    exact nomatch hnone

/-- A validation of a file that is there and sound tells so, unless it fails. -/
theorem validate_prepares (name : ℕ) {file : Files → Option Stamped} {found : Option Stamped}
    (huntouched : Untouched origin files) (hfile : file files.tick = found) :
    Ends (alone faults) (validateSnapshot site file) files
      (Prepares faults origin name fun sound now => now = files.tick ∧
        ((sound = true ∧ faults site = .done ∧ ∃ copy, found = some copy ∧
            copy.image.valid = true) ∨
          (sound = false ∧ ((∀ copy, found = some copy → copy.image.valid = false) ∨
            faults site = .fails))))
      fun _ => Untouched origin := by
  have hreached := huntouched.reached faults site
  refine validateSnapshot_ends (fun hfault => ⟨hreached, reach_alone faults site, ?_⟩)
    (fun hfault => ⟨hreached, reach_alone faults site, Or.inr ⟨rfl, Or.inr hfault⟩⟩)
    fun _ => hreached
  rw [reach_alone, hfile]
  cases found with
  | none => exact Or.inr ⟨rfl, Or.inl fun _ hcopy => nomatch hcopy⟩
  | some copy =>
    cases hvalid : copy.image.valid with
    | true => exact Or.inl ⟨by simp [hvalid], hfault, copy, rfl, hvalid⟩
    | false =>
      refine Or.inr ⟨by simp [hvalid], Or.inl fun other hother => ?_⟩
      exact Option.some.inj hother ▸ hvalid

theorem stageRole_ends {role : Role} {roles : List Role} {file : Stamped}
    (hcopy : origin.copyOf name role = some file) (hvalid : file.image.valid = true)
    (hrole : role ∉ roles) (huntouched : Untouched origin files)
    (hstaged : StagedAs origin name roles files) :
    Ends (alone faults) (stageRole name name role) files
      (Prepares faults origin name fun _ now => StagedAs origin name (role :: roles) now ∧
        Stages faults name role)
      fun _ => Untouched origin := by
  have hothers : ∀ {now : Files} (found : Option Stamped), StagedAs origin name roles now →
      StagedAs origin name roles (now.setStaged role found) := by
    intro now found hnow other hother
    have hne : other ≠ role := fun heq => hrole (heq ▸ hother)
    exact (Function.update_of_ne hne _ _).trans (hnow other hother)
  have hselfStaged : ∀ {now : Files}, StagedAs origin name roles now →
      StagedAs origin name (role :: roles) (now.setStaged role (some file)) := by
    intro now hnow other hother
    rcases List.mem_cons.mp hother with rfl | hmem
    · exact (Function.update_self _ _ _).trans hcopy.symm
    · exact hothers (some file) hnow other hmem
  unfold stageRole
  refine Prepares.bind (fun _ now => StagedAs origin name roles now ∧
      faults (.makeParent name role) = .done)
    (update_prepares rfl huntouched fun hfault =>
      ⟨_, rfl, huntouched.tick, hstaged, hfault⟩) ?_
  rintro - made hmade ⟨hstaged, hparent⟩
  refine Prepares.bind (fun _ now => StagedAs origin name roles now ∧
      faults (.openStaged name role) = .done)
    (update_prepares rfl hmade fun hfault =>
      ⟨_, rfl, hmade.tick.setStaged role _, hothers _ hstaged, hfault⟩) ?_
  rintro - opened hopened ⟨hstaged, hopen⟩
  have hfound : ∀ {now : Files}, Untouched origin now → now.copyOf name role = some file :=
    fun hnow => (hnow.shelf.copyOf name role).trans hcopy
  refine Prepares.bind (fun _ now => StagedAs origin name roles now ∧
      faults (.stage name role) = .done)
    (update_prepares rfl hopened fun hfault =>
      ⟨_, by rw [Files.stage, hfound hopened.tick, Option.map_some],
        hopened.tick.setStaged role _, hothers _ hstaged, hfault⟩) ?_
  rintro - copied hcopied ⟨hstaged, hstage⟩
  refine Prepares.bind (fun _ now => StagedAs origin name (role :: roles) now ∧
      faults (.stampStaged name role) = .done)
    (update_prepares rfl hcopied fun hfault =>
      ⟨_, by rw [Files.stampStaged, hfound hcopied.tick, Option.map_some],
        hcopied.tick.setStaged role _, hselfStaged hstaged, hfault⟩) ?_
  rintro - stamped hstamped ⟨hstaged, hstamp⟩
  refine Prepares.bind _ (validate_prepares _ hstamped rfl) ?_
  rintro sound validated hvalidated ⟨rfl, ⟨rfl, hdone, -⟩ | ⟨rfl, hunsound⟩⟩
  · exact Ends.pure ⟨hvalidated, hstaged, hparent, hopen, hstage, hstamp, hdone⟩
  · refine Ends.raise ⟨hvalidated, Or.inr ⟨rfl, _, hunsound.resolve_left fun hinvalid => ?_⟩⟩
    have hfile := hinvalid file ((hstaged role List.mem_cons_self).trans hcopy)
    exact nomatch hvalid.symm.trans hfile

theorem stagePair_ends (hcomplete : origin.Complete name) (huntouched : Untouched origin files) :
    Ends (alone faults) (eachRole (stageRole name name)) files
      (Prepares faults origin name fun _ now => StagedAs origin name [.relay, .main] now ∧
        ∀ role, Stages faults name role)
      fun _ => Untouched origin := by
  obtain ⟨main, hmain, hmainValid⟩ := hcomplete .main
  obtain ⟨relay, hrelay, hrelayValid⟩ := hcomplete .relay
  refine Prepares.bind _ (stageRole_ends hmain hmainValid List.not_mem_nil huntouched
    fun _ hrole => absurd hrole List.not_mem_nil) ?_
  rintro - half hhalf ⟨hstaged, hstages⟩
  refine (stageRole_ends hrelay hrelayValid (by decide) hhalf hstaged).mono ?_
    fun _ _ hstop => hstop
  rintro (error | value) now ⟨hnow, hresult⟩
  · exact ⟨hnow, hresult⟩
  · exact ⟨hnow, hresult.1, Role.forall.mpr ⟨hstages, hresult.2⟩⟩

/-- The pair is in place, and nothing else of what counts has changed. -/
structure Landed (origin : Files) (name : ℕ) (files : Files) : Prop where
  shelf : SameShelf origin files
  pair : ∀ role, ∃ file, origin.copyOf name role = some file ∧ files.live role = some file ∧
    files.wal role = none

theorem Landed.holdsPair (hlanded : Landed origin name files) : files.HoldsPair name :=
  fun role => by
    obtain ⟨file, hcopy, hlive, hwal⟩ := hlanded.pair role
    exact ⟨file, (hlanded.shelf.copyOf name role).trans hcopy, hlive, hwal⟩

@[simp]
theorem wal_unlinkWal_self (role : Role) (files : Files) :
    (files.unlinkWal role).wal role = none := by
  simp [Files.unlinkWal]

theorem update_done {effect : Files → Option Files} {after : Files}
    {post : Except Raised Unit → Files → Prop} {stop : Site → Files → Prop}
    (hfault : faults site = .done) (heffect : effect files.tick = some after)
    (hpost : post (.ok ()) after) :
    Ends (alone faults) (update site .osError effect) files post stop := by
  have hother : ∀ {fault : Faults.Fault}, faults site = fault → fault ≠ .done → False :=
    fun hsite hne => hne (hsite.symm.trans hfault)
  refine Ends.update (fun _ found hfound => ?_) (fun _ hnone => ?_)
    (fun hfails => (hother hfails (by decide)).elim) fun hstops =>
      (hother hstops (by decide)).elim
  · rw [reach_alone, heffect] at hfound
    exact Option.some.inj hfound ▸ hpost
  · rw [reach_alone, heffect] at hnone
    exact nomatch hnone

/-- The staged pair is put in place.  Without a fault in the window, the process is never left
with one database. -/
theorem placePair_ends (hcomplete : origin.Complete name) (huntouched : Untouched origin files)
    (hstaged : StagedAs origin name [.relay, .main] files)
    (hwindow : faults (.place name .main) = .done → Window faults origin name) :
    Ends (alone faults) (eachRole (placeRole name)) files
      (fun result now => match result with
        | .ok _ => faults (.place name .main) = .done ∧ Landed origin name now
        | .error _ => Fails faults name ∧
          (Untouched origin now ∨ faults (.place name .main) = .done ∧ Landed origin name now))
      fun _ now =>
        Untouched origin now ∨ faults (.place name .main) = .done ∧ Landed origin name now := by
  obtain ⟨main, hmain, -⟩ := hcomplete .main
  obtain ⟨relay, hrelay, -⟩ := hcomplete .relay
  have hmainStaged : files.staged .main = some main :=
    (hstaged .main (by decide)).trans hmain
  have hrelayStaged : files.staged .relay = some relay :=
    (hstaged .relay (by decide)).trans hrelay
  have hplaced : files.tick.place .main = some
      { files.tick.setStaged .main none with
        live := Function.update files.live .main (some main) } := by
    rw [Files.place, show files.tick.staged .main = some main from hmainStaged, Option.map_some]
    rfl
  by_cases hplace : faults (.place name .main) = .done
  · obtain ⟨hwal, hshm, hrelayPlace, hcleared⟩ := hwindow hplace
    -- the main database and its sidecars
    let half : Files → Prop := fun now => SameShelf origin now ∧ now.live .main = some main ∧
      now.wal .relay = origin.wal .relay ∧ now.staged .relay = some relay
    have hhalf : Ends (alone faults) (placeRole name .main) files
        (fun result now => result = .ok () ∧ half now ∧ now.wal .main = none) fun _ _ => False := by
      unfold placeRole
      refine Ends.bind (fun result now => result = .ok () ∧ half now)
        (update_done hplace hplaced ⟨rfl, ?_⟩) ?_ fun _ _ herror => nomatch herror.1
      · exact ⟨⟨huntouched.tick.shelf.clock, huntouched.shelf.markers, huntouched.shelf.finals⟩,
          Function.update_self Role.main (some main) files.live, congrFun huntouched.wal .relay,
          hrelayStaged⟩
      rintro - placed ⟨-, hshelf, hlive, hwalRelay, hstagedRelay⟩
      refine Ends.bind (fun result now => result = .ok () ∧ half now ∧ now.wal .main = none)
        (update_done hwal rfl ⟨rfl, ⟨?_, hlive, hwalRelay, hstagedRelay⟩,
          wal_unlinkWal_self .main placed.tick⟩) ?_ fun _ _ herror => nomatch herror.1
      · exact ⟨hshelf.clock.trans (Nat.le_succ _), hshelf.markers, hshelf.finals⟩
      rintro - cleared ⟨-, ⟨hshelf, hlive, hwalRelay, hstagedRelay⟩, hwalMain⟩
      refine update_done hshm rfl ⟨rfl, ⟨?_, hlive, hwalRelay, hstagedRelay⟩, hwalMain⟩
      exact ⟨hshelf.clock.trans (Nat.le_succ _), hshelf.markers, hshelf.finals⟩
    unfold eachRole
    refine Ends.bind _ (hhalf.mono (fun _ _ hpost => hpost) fun _ _ hstop => hstop.elim) ?_
      fun _ _ herror => nomatch herror.1
    rintro - now ⟨-, ⟨hshelf, hlive, hwalRelay, hstagedRelay⟩, hwalMain⟩
    -- the Relay database and its sidecars
    let whole : Files → Prop := fun now => SameShelf origin now ∧ now.live .main = some main ∧
      now.live .relay = some relay ∧ now.wal .main = none
    have hlanded : ∀ {now : Files}, whole now → now.wal .relay = none → Landed origin name now :=
      fun hnow hgone => ⟨hnow.1, Role.forall.mpr ⟨⟨main, hmain, hnow.2.1, hnow.2.2.2⟩,
        relay, hrelay, hnow.2.2.1, hgone⟩⟩
    unfold placeRole
    have hplacedRelay : now.tick.place .relay = some
        { now.tick.setStaged .relay none with
          live := Function.update now.live .relay (some relay) } := by
      rw [Files.place, show now.tick.staged .relay = some relay from hstagedRelay,
        Option.map_some]
      rfl
    refine Ends.bind (fun result now => result = .ok () ∧ whole now ∧
        now.wal .relay = origin.wal .relay)
      (update_done hrelayPlace hplacedRelay ⟨rfl, ⟨?_, ?_,
        Function.update_self Role.relay (some relay) now.live, hwalMain⟩, hwalRelay⟩) ?_
      fun _ _ herror => nomatch herror.1
    · exact ⟨hshelf.clock.trans (Nat.le_succ _), hshelf.markers, hshelf.finals⟩
    · have hne : Role.main ≠ Role.relay := by decide
      exact (Function.update_of_ne hne (some relay) now.live).trans hlive
    rintro - pair ⟨-, ⟨hshelf, hlive, hliveRelay, hwalMain⟩, hwalRelay⟩
    have hticked : ∀ {now : Files}, whole now → whole now.tick := fun hnow =>
      ⟨⟨hnow.1.clock.trans (Nat.le_succ _), hnow.1.markers, hnow.1.finals⟩, hnow.2⟩
    have hpair := hticked ⟨hshelf, hlive, hliveRelay, hwalMain⟩
    -- a fault at a sidecar that is not there does no harm
    have hgone : faults (.unlinkWal name .relay) ≠ .done → origin.wal .relay = none :=
      fun hfault => hcleared.resolve_left hfault
    refine Ends.bind (fun result now => match result with
        | .ok _ => Landed origin name now
        | .error _ => Fails faults name ∧ Landed origin name now)
      (Ends.update_some (fun _ => ?_) (fun hfails => ?_) fun hstops => ?_) ?_ ?_
    · rw [reach_alone]
      have hwhole : whole (pair.tick.unlinkWal .relay) := by
        have hne : Role.main ≠ Role.relay := by decide
        exact ⟨⟨hpair.1.clock, hpair.1.markers, hpair.1.finals⟩, hpair.2.1, hpair.2.2.1,
          (Function.update_of_ne hne none pair.wal).trans hwalMain⟩
      exact hlanded hwhole (wal_unlinkWal_self .relay pair.tick)
    · rw [reach_alone]
      refine ⟨⟨_, rfl, hfails⟩, hlanded hpair (hwalRelay.trans (hgone ?_))⟩
      exact fun hdone => nomatch hdone.symm.trans hfails
    · rw [reach_alone]
      refine Or.inr ⟨hplace, hlanded hpair (hwalRelay.trans (hgone ?_))⟩
      exact fun hdone => nomatch hdone.symm.trans hstops
    · intro _ cleared hcleared
      have hlands : Landed origin name cleared.tick :=
        ⟨⟨hcleared.shelf.clock.trans (Nat.le_succ _), hcleared.shelf.markers,
          hcleared.shelf.finals⟩, hcleared.pair⟩
      refine Ends.update_some (fun _ => ?_) (fun hfails => ?_) fun hstops => ?_
      · rw [reach_alone]
        exact ⟨hplace, ⟨hlands.shelf.clock, hlands.shelf.markers, hlands.shelf.finals⟩,
          hlands.pair⟩
      · rw [reach_alone]
        exact ⟨⟨_, rfl, hfails⟩, Or.inr ⟨hplace, hlands⟩⟩
      · rw [reach_alone]
        exact Or.inr ⟨hplace, hlands⟩
    · exact fun _ _ herror => ⟨herror.1, Or.inr ⟨hplace, herror.2⟩⟩
  · -- nothing has been replaced yet
    have hreached := huntouched.reached faults (.place name .main)
    unfold eachRole placeRole
    refine Ends.bind (fun result now => Untouched origin now ∧ Fails faults name ∧
        ∀ value, result ≠ .ok value)
      (Ends.bind (fun result now => Untouched origin now ∧ Fails faults name ∧
        ∀ value, result ≠ .ok value)
        (Ends.update (fun hdone => absurd hdone hplace) (fun hdone => absurd hdone hplace)
          (fun hfails => ⟨hreached, ⟨_, rfl, hfails⟩, fun _ herror => nomatch herror⟩)
          fun _ => Or.inl hreached) (fun value _ hnow => absurd rfl (hnow.2.2 value))
        fun _ _ herror => ⟨herror.1, herror.2.1, fun _ hnone => nomatch hnone⟩)
      (fun value _ hnow => absurd rfl (hnow.2.2 value)) ?_
    exact fun _ _ herror => ⟨herror.2.1, Or.inl herror.1⟩

/-- What an attempt under the condition may leave behind. -/
def Settled (faults : Site → Faults.Fault) (origin : Files) (name : ℕ) (now : Files) : Prop :=
  Untouched origin now ∨ Places faults origin name ∧ Landed origin name now

theorem Settled.tick {now : Files} (hsettled : Settled faults origin name now) :
    Settled faults origin name now.tick := by
  rcases hsettled with huntouched | ⟨hplaces, hlanded⟩
  · exact Or.inl huntouched.tick
  · exact Or.inr ⟨hplaces, ⟨hlanded.shelf.clock.trans (Nat.le_succ _), hlanded.shelf.markers,
      hlanded.shelf.finals⟩, hlanded.pair⟩

theorem Settled.setStaged {now : Files} (hsettled : Settled faults origin name now) (role : Role)
    (file : Option Stamped) : Settled faults origin name (now.setStaged role file) := by
  rcases hsettled with huntouched | ⟨hplaces, hlanded⟩
  · exact Or.inl (huntouched.setStaged role file)
  · exact Or.inr ⟨hplaces, ⟨hlanded.shelf.clock, hlanded.shelf.markers, hlanded.shelf.finals⟩,
      hlanded.pair⟩

/-- How an attempt ends under the condition. -/
def Attempts (faults : Site → Faults.Fault) (origin : Files) (name : ℕ)
    (result : Except Raised Bool) (now : Files) : Prop :=
  match result with
  | .ok true => Places faults origin name ∧ Landed origin name now
  | .ok false => Untouched origin now ∧ (origin.Complete name → Fails faults name)
  | .error error =>
    Settled faults origin name now ∧ (origin.Complete name → Blames faults name error)

theorem install_ends (hcomplete : origin.Complete name)
    (hread : faults (.readMarker name) = .done)
    (hvalidated : ∀ role, faults (.validateCopy name role) = .done)
    (huntouched : Untouched origin files)
    (hwindow : Places faults origin name → Window faults origin name) :
    Ends (alone faults) (install name name) files (Attempts faults origin name)
      fun _ => Settled faults origin name := by
  unfold install
  refine Ends.handle (fun result now => match result with
      | .ok value => value = true ∧ Places faults origin name ∧ Landed origin name now
      | .error error => Settled faults origin name now ∧ Blames faults name error) ?_ ?_ ?_
  · refine Ends.bind _ ((stagePair_ends hcomplete huntouched).mono (fun _ _ hpost => hpost)
      fun _ _ hstop => Or.inl hstop) ?_ fun _ _ herror => ⟨Or.inl herror.1, herror.2⟩
    rintro - staged ⟨hstagedFiles, hstaged, hstages⟩
    have hplaces : faults (.place name .main) = .done → Places faults origin name :=
      fun hplace => ⟨hcomplete, hread, fun role => ⟨hvalidated role, hstages role⟩, hplace⟩
    have hlands : ∀ {now : Files}, faults (.place name .main) = .done ∧ Landed origin name now →
        Places faults origin name ∧ Landed origin name now :=
      fun hnow => ⟨hplaces hnow.1, hnow.2⟩
    refine Ends.bind _ ((placePair_ends hcomplete hstagedFiles hstaged fun hplace =>
      hwindow (hplaces hplace)).mono (fun _ _ hpost => hpost) fun _ _ hstop =>
        hstop.imp_right hlands) ?_ fun _ _ herror =>
          ⟨herror.2.imp_right hlands, Or.inl herror.1⟩
    exact fun _ now hnow => Ends.pure ⟨rfl, hlands hnow⟩
  · rintro value now ⟨rfl, hnow⟩
    exact hnow
  · rintro error now ⟨hnow, hblames⟩
    have hunlink : ∀ (role : Role) {now : Files}, Settled faults origin name now →
        Ends (alone faults) (update (.unlinkStaged name role) Raised.osError
            fun files : Files => some (files.setStaged role none)) now
          (fun result after => Settled faults origin name after ∧ match result with
            | .ok _ => True
            | .error error => Blames faults name error) fun _ => Settled faults origin name := by
      intro role now hnow
      refine Ends.update_some (fun _ => ?_) (fun hfails => ?_) fun _ => ?_
      · rw [reach_alone]
        exact ⟨hnow.tick.setStaged role none, trivial⟩
      · rw [reach_alone]
        exact ⟨hnow.tick, Or.inl ⟨_, rfl, hfails⟩⟩
      · rw [reach_alone]
        exact hnow.tick
    unfold eachRole
    refine Ends.bind _ (Ends.bind _ (hunlink .main hnow)
      (fun _ half hhalf => hunlink .relay hhalf.1) fun _ _ herror => herror)
      (fun _ cleaned hcleaned => Ends.raise ⟨hcleaned.1, fun _ => hblames⟩)
      fun _ _ herror => ⟨herror.1, fun _ => herror.2⟩

theorem attempt_ends {marker : Marker} (hmarker : marker ∈ origin.markers.rows)
    (hnamed : marker.manifest.generation = some marker.name)
    (huntouched : Untouched origin files)
    (hwindow : Places faults origin marker.name → Window faults origin marker.name) :
    Ends (alone faults) (attempt marker) files (Attempts faults origin marker.name)
      fun _ => Settled faults origin marker.name := by
  have hprepared : ∀ {α : Type} {reached : α → Files → Prop} {error : Raised} {now : Files},
      Prepares faults origin marker.name reached (.error error) now →
      Attempts faults origin marker.name (.error error) now :=
    fun hnow => ⟨Or.inl hnow.1, fun _ => hnow.2⟩
  unfold attempt
  have hread : Ends (alone faults) (readGeneration (.readMarker marker.name) marker.name) files
      (Prepares faults origin marker.name fun generation now => generation = marker.name ∧
        faults (.readMarker marker.name) = .done)
      fun _ => Untouched origin := by
    have hreached := huntouched.reached faults (.readMarker marker.name)
    have hget : (reach (alone faults (.readMarker marker.name)) files).markers.get marker.name =
        some marker := by
      rw [hreached.shelf.markers]
      exact Table.get_of_mem hmarker
    unfold readGeneration
    refine Prepares.bind (fun manifest now => manifest = marker.manifest ∧
        faults (.readMarker marker.name) = .done)
      (Ends.inspect (fun hdone manifest hmanifest => ⟨hreached, ?_, hdone⟩) (fun _ hnone => ?_)
        (fun hfails => ⟨hreached, Or.inl ⟨_, rfl, hfails⟩⟩) fun _ => hreached) ?_
    · rw [hget, Option.map_some] at hmanifest
      exact (Option.some.inj hmanifest).symm
    · rw [hget, Option.map_some] at hnone
      exact nomatch hnone
    · rintro manifest now hnow ⟨rfl, hdone⟩
      rw [hnamed]
      exact Ends.pure ⟨hnow, rfl, hdone⟩
  refine Ends.bind _ (hread.mono (fun _ _ hpost => hpost) fun _ _ hstop => Or.inl hstop) ?_
    fun _ _ herror => hprepared herror
  rintro _ read ⟨hread, rfl, hreadDone⟩
  have hvalidates : Ends (alone faults) (validatePair marker.name marker.name) read
      (Prepares faults origin marker.name fun sound _ =>
        (sound = true ∧ origin.Complete marker.name ∧
          ∀ role, faults (.validateCopy marker.name role) = .done) ∨
        (sound = false ∧ (origin.Complete marker.name → Fails faults marker.name)))
      fun _ => Untouched origin := by
    have hunsound : ∀ {role : Role}, ((∀ copy, origin.copyOf marker.name role = some copy →
        copy.image.valid = false) ∨ faults (.validateCopy marker.name role) = .fails) →
        origin.Complete marker.name → Fails faults marker.name := by
      rintro role (hinvalid | hfails) hcomplete
      · obtain ⟨copy, hcopy, hvalid⟩ := hcomplete role
        exact nomatch hvalid.symm.trans (hinvalid copy hcopy)
      · exact ⟨_, rfl, hfails⟩
    unfold validatePair
    refine Prepares.bind _ (validate_prepares _ hread (hread.tick.shelf.copyOf _ _)) ?_
    rintro main validated hvalidated ⟨rfl, ⟨rfl, hmainDone, main, hmain, hmainValid⟩ | ⟨rfl, hmain⟩⟩
    · rw [if_pos rfl]
      refine (validate_prepares marker.name hvalidated (hvalidated.tick.shelf.copyOf _ _)).mono ?_
        fun _ _ hstop => hstop
      rintro (error | sound) now ⟨hnow, hresult⟩
      · exact ⟨hnow, hresult⟩
      · obtain ⟨-, ⟨rfl, hrelayDone, relay, hrelay, hrelayValid⟩ | ⟨rfl, hrelay⟩⟩ := hresult
        · exact ⟨hnow, Or.inl ⟨rfl, Role.forall.mpr ⟨⟨main, hmain, hmainValid⟩, relay, hrelay,
            hrelayValid⟩, Role.forall.mpr ⟨hmainDone, hrelayDone⟩⟩⟩
        · exact ⟨hnow, Or.inr ⟨rfl, hunsound hrelay⟩⟩
    · rw [if_neg Bool.false_ne_true]
      exact Ends.pure ⟨hvalidated, Or.inr ⟨rfl, hunsound hmain⟩⟩
  refine Ends.bind _ (hvalidates.mono (fun _ _ hpost => hpost) fun _ _ hstop => Or.inl hstop) ?_
    fun _ _ herror => hprepared herror
  rintro sound validated ⟨hvalidated, ⟨rfl, hcomplete, hdone⟩ | ⟨rfl, hincomplete⟩⟩
  · rw [if_pos rfl]
    exact install_ends hcomplete hreadDone hdone hvalidated hwindow
  · rw [if_neg Bool.false_ne_true]
    exact Ends.pure ⟨hvalidated, hincomplete⟩

end Attempt

section Restore

variable {faults : Site → Faults.Fault} {start files : Files}

variable {now : Files}

theorem Untouched.trans {first second third : Files} (hfirst : Untouched first second)
    (hsecond : Untouched second third) : Untouched first third :=
  ⟨⟨hfirst.shelf.clock.trans hsecond.shelf.clock,
    hsecond.shelf.markers.trans hfirst.shelf.markers,
    hsecond.shelf.finals.trans hfirst.shelf.finals⟩, hsecond.live.trans hfirst.live,
    hsecond.wal.trans hfirst.wal⟩

theorem Settled.trans {name : ℕ} {after : Files} (hsettled : Settled faults start name now)
    (huntouched : Untouched now after) : Settled faults start name after := by
  rcases hsettled with hbefore | ⟨hplaces, hlanded⟩
  · exact Or.inl (hbefore.trans huntouched)
  · refine Or.inr ⟨hplaces, ⟨⟨hlanded.shelf.clock.trans huntouched.shelf.clock,
      huntouched.shelf.markers.trans hlanded.shelf.markers,
      huntouched.shelf.finals.trans hlanded.shelf.finals⟩, ?_⟩⟩
    rw [huntouched.live, huntouched.wal]
    exact hlanded.pair

theorem Settled.shelf {name : ℕ} (hsettled : Settled faults start name now) :
    SameShelf start now :=
  hsettled.elim (fun huntouched => huntouched.shelf) fun hlanded => hlanded.2.shelf

theorem places_congr {other : ℕ} (hshelf : SameShelf start now) (hplaces : Places faults now other)
    : Places faults start other := by
  refine ⟨fun role => ?_, hplaces.2⟩
  obtain ⟨file, hcopy, hvalid⟩ := hplaces.1 role
  exact ⟨file, (hshelf.copyOf other role).symm.trans hcopy, hvalid⟩

/-- Generations whose main database is not put in place leave the live files alone. -/
theorem restoreFrom_blocked {markers : List Marker}
    (hmarkers : ∀ marker ∈ markers, marker ∈ start.markers.rows ∧
      marker.manifest.generation = some marker.name)
    (hblocked : ∀ marker ∈ markers, ¬ Places faults start marker.name)
    (huntouched : Untouched start files) :
    Ends (alone faults) (restoreFrom markers) files
      (fun result now => Untouched start now ∧ result ≠ .ok true) fun _ => Untouched start := by
  induction markers generalizing files with
  | nil => exact Ends.pure ⟨huntouched, fun hresult => nomatch hresult⟩
  | cons marker older ih =>
    have hnot := hblocked marker List.mem_cons_self
    obtain ⟨hmem, hnamed⟩ := hmarkers marker List.mem_cons_self
    have hstays : ∀ {now : Files}, Settled faults start marker.name now → Untouched start now :=
      fun hsettled => hsettled.resolve_right fun hlanded => hnot hlanded.1
    have hattempt := attempt_ends hmem hnamed huntouched fun hplaces => absurd hplaces hnot
    unfold restoreFrom
    refine Ends.bind (fun result now => Untouched start now ∧ result ≠ .ok true)
      (Ends.handle _ (hattempt.mono (fun _ _ hpost => hpost) fun _ _ hstop => hstays hstop)
        ?_ ?_) ?_ ?_
    · rintro (_ | _) now hnow
      · exact ⟨hnow.1, fun hresult => nomatch hresult⟩
      · exact absurd hnow.1 hnot
    · rintro error now ⟨hnow, -⟩
      split
      · exact Ends.pure ⟨hstays hnow, fun hresult => nomatch hresult⟩
      · exact Ends.raise ⟨hstays hnow, fun hresult => nomatch hresult⟩
    · rintro (_ | _) now ⟨hnow, hresult⟩
      · rw [if_neg Bool.false_ne_true]
        exact ih (List.forall_mem_cons.mp hmarkers).2
          (List.forall_mem_cons.mp hblocked).2 hnow
      · exact absurd rfl hresult
    · exact fun error now hnow => ⟨hnow.1, fun hresult => nomatch hresult⟩

/-- The faults under which a restore leaves no half pair and no older generation behind.  From
the moment the newest main database is in place nothing happens to the operations that put the
rest of its pair in place; and where an operation on the newest generation fails, no older
generation gets as far as its main database. -/
structure Undisturbed (faults : Site → Faults.Fault) (start : Files) : Prop where
  window : ∀ marker, start.Newest marker → Places faults start marker.name →
    Window faults start marker.name
  older : ∀ marker, start.Newest marker → Fails faults marker.name →
    ∀ other ∈ start.markers.rows, other.name < marker.name → ¬ Places faults start other.name

theorem not_faultless_alone {site : Site} (hfails : faults site = .fails) :
    ¬ Faultless (alone faults : Schedule) :=
  fun hfaultless => nomatch hfails.symm.trans (hfaultless site)

/-- A restore that meets no database goes through the manifests. -/
theorem restoreSnapshot_of_none {post : Except Raised Bool → Files → Prop}
    {stop : Site → Files → Prop} (hnone : ∀ role, start.live role = none)
    (hfrom : ∀ now, Untouched start now →
      Ends (alone faults) (restoreFrom start.listManifests) now post stop)
    (herror : ∀ error now, Untouched start now → ¬ Faultless (alone faults : Schedule) →
      post (.error error) now)
    (hstop : ∀ site now, Untouched start now → stop site now) :
    Ends (alone faults) restoreSnapshot start post stop := by
  have hfind : ∀ (role : Role) {now : Files}, Untouched start now →
      Ends (alone faults) (inspect (.findLive role) Raised.osError fun files : Files =>
          some (files.live role).isSome) now
        (fun result now => Untouched start now ∧ match result with
          | .ok found => found = false
          | .error _ => ¬ Faultless (alone faults : Schedule)) stop := by
    intro role now hnow
    have hreached := hnow.reached faults (.findLive role)
    refine Ends.inspect_some (fun _ => ⟨hreached, ?_⟩)
      (fun hfails => ⟨hreached, not_faultless_alone hfails⟩) fun _ => hstop _ _ hreached
    rw [hreached.live, hnone]
    rfl
  unfold restoreSnapshot
  refine Ends.bind _ (hfind .main (Untouched.refl start)) ?_
    fun error now hnow => herror error now hnow.1 hnow.2
  rintro _ found ⟨hfound, rfl⟩
  refine Ends.bind _ (hfind .relay hfound) ?_ fun error now hnow => herror error now hnow.1 hnow.2
  rintro _ found ⟨hfound, rfl⟩
  rw [if_neg (by decide), if_neg (by decide)]
  have hreached := hfound.reached faults .globMarkers
  refine Ends.bind (fun result now => Untouched start now ∧ match result with
      | .ok markers => markers = start.listManifests
      | .error _ => ¬ Faultless (alone faults : Schedule))
    (Ends.inspect_some (fun _ => ⟨hreached, ?_⟩)
      (fun hfails => ⟨hreached, not_faultless_alone hfails⟩) fun _ => hstop _ _ hreached) ?_
    fun error now hnow => herror error now hnow.1 hnow.2
  · rw [Files.listManifests, hreached.shelf.markers, Files.listManifests]
  · rintro _ listed ⟨hlisted, rfl⟩
    exact hfrom listed hlisted

/-- A restore that meets no database puts the newest pair in place, or leaves none behind. -/
theorem restoreSnapshot_ends {marker : Marker} (hnewest : start.Newest marker)
    (hnamed : ∀ other ∈ start.markers.rows, other.manifest.generation = some other.name)
    (hcomplete : start.Complete marker.name) (hnone : ∀ role, start.live role = none)
    (hundisturbed : Undisturbed faults start) :
    Ends (alone faults) restoreSnapshot start
      (fun result now => Settled faults start marker.name now ∧ match result with
        | .ok true => Landed start marker.name now
        | _ => ¬ Faultless (alone faults : Schedule))
      fun _ => Settled faults start marker.name := by
  refine restoreSnapshot_of_none hnone (fun listed hlisted => ?_)
    (fun _ _ hnow hfaulty => ⟨Or.inl hnow, hfaulty⟩) fun _ _ hnow => Or.inl hnow
  rcases start.listManifests_cases with ⟨hnil, -⟩ | ⟨first, older, hlist, hfirst, holder⟩
  · exact absurd hnewest.1 (hnil ▸ List.not_mem_nil)
  obtain rfl := hfirst.eq hnewest
  rw [hlist]
  have hattempt := attempt_ends hnewest.1 (hnamed first hnewest.1) hlisted
    (hundisturbed.window first hnewest)
  -- what a failed attempt at the newest leaves is what the older ones leave
  have hrest : ∀ {now : Files}, Settled faults start first.name now →
      Fails faults first.name →
      Ends (alone faults) (restoreFrom older) now
        (fun result after => Settled faults start first.name after ∧ match result with
          | .ok true => Landed start first.name after
          | _ => ¬ Faultless (alone faults : Schedule))
        fun _ => Settled faults start first.name := by
    intro now hnow hfails
    obtain ⟨site, hrestored, hsite⟩ := hfails
    refine (restoreFrom_blocked (fun other hother => ?_) (fun other hother hplaces => ?_)
      (Untouched.refl now)).mono ?_ fun _ _ hstop => hnow.trans hstop
    · rw [hnow.shelf.markers]
      exact ⟨(holder other hother).1, hnamed other (holder other hother).1⟩
    · exact hundisturbed.older first hnewest ⟨site, hrestored, hsite⟩ other (holder other hother).1
        (holder other hother).2 (places_congr hnow.shelf hplaces)
    · rintro (error | _ | _) after ⟨hafter, hresult⟩
      · exact ⟨hnow.trans hafter, not_faultless_alone hsite⟩
      · exact ⟨hnow.trans hafter, not_faultless_alone hsite⟩
      · exact absurd rfl hresult
  unfold restoreFrom
  refine Ends.bind (fun result now => Settled faults start first.name now ∧ match result with
      | .ok true => Landed start first.name now
      | .ok false => Fails faults first.name
      | .error _ => ¬ Faultless (alone faults : Schedule))
    (Ends.handle _ hattempt ?_ ?_) ?_ fun _ _ herror => herror
  · rintro (_ | _) now hnow
    · exact ⟨Or.inl hnow.1, hnow.2 hcomplete⟩
    · exact ⟨Or.inr hnow, hnow.2⟩
  · rintro error now ⟨hnow, hblames⟩
    split
    · next hskipped =>
        refine Ends.pure ⟨hnow, (hblames hcomplete).resolve_right fun hunskipped => ?_⟩
        exact nomatch hskipped.symm.trans hunskipped.1
    · rcases hblames hcomplete with ⟨site, -, hsite⟩ | ⟨-, site, hsite⟩
      · exact Ends.raise ⟨hnow, not_faultless_alone hsite⟩
      · exact Ends.raise ⟨hnow, not_faultless_alone hsite⟩
  · rintro (_ | _) now ⟨hnow, hresult⟩
    · rw [if_neg Bool.false_ne_true]
      exact hrest hnow hresult
    · rw [if_pos rfl]
      exact Ends.pure ⟨hnow, hresult⟩

theorem restoreSnapshot_unpublished (hnone : ∀ role, start.live role = none)
    (hmarkers : start.markers.rows = []) :
    Untouched start (restoreSnapshot (alone faults) start).state := by
  refine Ends.holds (restoreSnapshot_of_none hnone (fun now hnow => ?_) (fun _ _ hnow _ => hnow)
    fun _ _ hnow => hnow)
  rcases start.listManifests_cases with ⟨-, hlist⟩ | ⟨first, -, -, hfirst, -⟩
  · rw [hlist]
    exact Ends.pure hnow
  · exact absurd (hmarkers ▸ hfirst.1) List.not_mem_nil

theorem restoreSnapshot_of_pair (hlive : ∀ role, start.live role ≠ none) :
    Ends (alone faults) restoreSnapshot start
      (fun result now => Untouched start now ∧ now.shm = start.shm ∧
        (result = .ok false ∨ ¬ Faultless (alone faults : Schedule)))
      fun _ now => Untouched start now ∧ now.shm = start.shm := by
  have hfind : ∀ (role : Role) {now : Files}, Untouched start now → now.shm = start.shm →
      Ends (alone faults) (inspect (.findLive role) Raised.osError fun files : Files =>
          some (files.live role).isSome) now
        (fun result now => Untouched start now ∧ now.shm = start.shm ∧ match result with
          | .ok found => found = true
          | .error _ => ¬ Faultless (alone faults : Schedule))
        fun _ now => Untouched start now ∧ now.shm = start.shm := by
    intro role now hnow hshm
    have hreached := hnow.reached faults (.findLive role)
    have hreachedShm : (reach (alone faults (.findLive role)) now).shm = start.shm := by
      rw [reach_alone]
      exact hshm
    refine Ends.inspect_some (fun _ => ⟨hreached, hreachedShm, ?_⟩)
      (fun hfails => ⟨hreached, hreachedShm, not_faultless_alone hfails⟩)
      fun _ => ⟨hreached, hreachedShm⟩
    rw [hreached.live]
    exact Option.isSome_iff_ne_none.mpr (hlive role)
  unfold restoreSnapshot
  refine Ends.bind _ (hfind .main (Untouched.refl start) rfl) ?_
    fun _ _ herror => ⟨herror.1, herror.2.1, Or.inr herror.2.2⟩
  rintro _ found ⟨hfound, hshm, rfl⟩
  refine Ends.bind _ (hfind .relay hfound hshm) ?_
    fun _ _ herror => ⟨herror.1, herror.2.1, Or.inr herror.2.2⟩
  rintro _ found ⟨hfound, hshm, rfl⟩
  rw [if_pos (by decide)]
  exact Ends.pure ⟨hfound, hshm, Or.inl rfl⟩

end Restore

section Honest

theorem honest_restoreFrom (markers : List Marker) : Honest (restoreFrom markers) := by
  induction markers with
  | nil => exact honest_pure _
  | cons marker older ih =>
    unfold restoreFrom
    refine honest_bind (honest_handle ?_ fun error => ?_) fun restored => ?_
    · unfold attempt
      refine honest_bind (honest_readGeneration _ _) fun generation => honest_bind ?_ ?_
      · unfold validatePair
        refine honest_bind (honest_validateSnapshot _ _) fun main => ?_
        split
        · exact honest_validateSnapshot _ _
        · exact honest_pure _
      · intro sound
        split
        · unfold install
          refine honest_handle (honest_bind (honest_eachRole fun role => ?_) fun _ =>
            honest_bind (honest_eachRole fun role => ?_) fun _ => honest_pure _) fun _ =>
            honest_bind (honest_eachRole fun role => honest_update _ _ _) fun _ =>
            honest_raise _
          · unfold stageRole
            refine honest_bind (honest_update _ _ _) fun _ => honest_bind (honest_update _ _ _)
              fun _ => honest_bind (honest_update _ _ _) fun _ =>
              honest_bind (honest_update _ _ _) fun _ =>
              honest_bind (honest_validateSnapshot _ _) fun sound => ?_
            split
            · exact honest_pure _
            · exact honest_raise _
          · exact honest_bind (honest_update _ _ _) fun _ =>
              honest_bind (honest_update _ _ _) fun _ => honest_update _ _ _
        · exact honest_pure _
    · split
      · exact honest_pure _
      · exact honest_raise _
    · split
      · exact honest_pure _
      · exact ih

theorem honest_restoreSnapshot : Honest restoreSnapshot := by
  unfold restoreSnapshot
  refine honest_bind (honest_inspect _ _ _) fun main =>
    honest_bind (honest_inspect _ _ _) fun relay => ?_
  split
  · exact honest_pure _
  · split
    · exact honest_raise _
    · exact honest_bind (honest_inspect _ _ _) fun markers => honest_restoreFrom markers

end Honest

end Pallium.Snapshot
