import Pallium.Snapshot.Publish

/-!
# Pruning old generations

`prune_old_snapshots` goes through the manifests beyond the first `keep`, newest first, and
removes for each the pair that it names and then the manifest itself.  Without a manifest it
removes files by name instead.  However far it gets, it only removes, and it leaves the newest
generation alone when it is to keep one.
-/

namespace Pallium.Snapshot

open Interrupted Program

/-- `json.loads(marker.read_text())["generation"]`. -/
def readGeneration (site : Site) (name : ℕ) : Action ℕ := do
  let manifest ← inspect site .osError fun files : Files =>
    (files.markers.get name).map Marker.manifest
  match manifest.generation with
  | some generation => pure generation
  | none => raise .badManifest

def Files.unlinkManifest (name : ℕ) (files : Files) : Files :=
  { files with markers := files.markers.erase name }

/-- The loop over the manifests to remove. -/
def pruneEach : List Marker → Action Unit
  | [] => pure ()
  | marker :: rest => do
    handle
      (do
        let generation ← readGeneration (.readManifest marker.name) marker.name
        eachRole fun role => update (.unlinkCopy marker.name role) .osError fun files =>
          some (files.unlinkFinal generation role))
      fun error => if error.skipped then pure () else raise error
    update (.unlinkManifest marker.name) .osError fun files =>
      some (files.unlinkManifest marker.name)
    pruneEach rest

def unlinkFiles : List Copy → Action Unit
  | [] => pure ()
  | copy :: rest => do
    update (.unlinkFile copy.generation copy.role) .osError fun files =>
      some (files.unlinkFinal copy.generation copy.role)
    unlinkFiles rest

def pruneOldSnapshots (keep : ℕ) : Action Unit := do
  let markers ← inspect .globManifests .osError fun files => some files.listManifests
  pruneEach (markers.drop keep)
  if markers.isEmpty then do
    let old ← inspect .globFiles .osError fun files => some files.listFiles
    unlinkFiles (old.drop keep)
  else pure ()

/-- A manifest that can be read names its own generation. -/
def Files.Named (files : Files) : Prop :=
  ∀ marker ∈ files.markers.rows, ∀ generation,
    marker.manifest.generation = some generation → generation = marker.name

section Prune

variable {schedule : Schedule} {start files : Files} {safe : ℕ → Prop}

variable {name : ℕ}

/-- Files and manifests have gone since the start, but not those of a safe generation; the
databases are in the hands of their writers. -/
structure Thinned (schedule : Schedule) (safe : ℕ → Prop) (start files : Files) : Prop where
  evolves : ∀ {property : Files → Prop}, Steady property → property start → property files
  clock : start.clock ≤ files.clock
  markers : ∀ name marker, files.markers.get name = some marker →
    start.markers.get name = some marker
  copies : ∀ generation role file, files.copyOf generation role = some file →
    start.copyOf generation role = some file
  kept : ∀ name, safe name → files.markers.get name = start.markers.get name ∧
    ∀ role, files.copyOf name role = start.copyOf name role
  quiet : Quiet schedule → files.live = start.live ∧ files.wal = start.wal

theorem Thinned.refl (schedule : Schedule) (safe : ℕ → Prop) (files : Files) :
    Thinned schedule safe files files where
  evolves _ hfiles := hfiles
  clock := le_rfl
  markers _ _ hmarker := hmarker
  copies _ _ _ hcopy := hcopy
  kept _ _ := ⟨rfl, fun _ => rfl⟩
  quiet _ := ⟨rfl, rfl⟩

theorem Thinned.reached (hthinned : Thinned schedule safe start files) (site : Site) :
    Thinned schedule safe start (reach (schedule site) files) where
  evolves hsteady hstart := hsteady.reach _ _ (hthinned.evolves hsteady hstart)
  clock := hthinned.clock.trans (clock_lt_reach _ _).le
  markers name marker hmarker := hthinned.markers name marker (by simpa using hmarker)
  copies generation role file hcopy := hthinned.copies generation role file (by simpa using hcopy)
  kept name hsafe := by simpa using hthinned.kept name hsafe
  quiet hquiet := by
    rw [hquiet.reach]
    exact hthinned.quiet hquiet

theorem copyOf_unlinkFinal (files : Files) (generation other : ℕ) (role role' : Role) :
    (files.unlinkFinal generation role).copyOf other role' =
      if (other, role') = (generation, role) then none else files.copyOf other role' := by
  simp only [Files.copyOf, Files.unlinkFinal, Table.get_erase]
  split <;> rfl

theorem Thinned.unlinkFinal (hthinned : Thinned schedule safe start files) {generation : ℕ}
    (hdoom : ¬ safe generation) (role : Role) :
    Thinned schedule safe start (files.unlinkFinal generation role) :=
  { hthinned with
    evolves := fun hsteady hstart =>
      hsteady.frame files _ rfl rfl rfl (hthinned.evolves hsteady hstart)
    copies := fun other role' file hcopy => by
      rw [copyOf_unlinkFinal] at hcopy
      split at hcopy
      · exact nomatch hcopy
      · exact hthinned.copies other role' file hcopy
    kept := fun name hsafe => by
      refine ⟨(hthinned.kept name hsafe).1, fun role' => ?_⟩
      rw [copyOf_unlinkFinal, if_neg, (hthinned.kept name hsafe).2]
      intro heq
      have hname : name = generation := (Prod.ext_iff.mp heq).1
      exact hdoom (hname ▸ hsafe) }

theorem get_unlinkManifest (files : Files) (name other : ℕ) :
    (files.unlinkManifest name).markers.get other =
      if other = name then none else files.markers.get other :=
  Table.get_erase _ _ _

theorem Thinned.unlinkManifest (hthinned : Thinned schedule safe start files) (hdoom : ¬ safe name)
    : Thinned schedule safe start (files.unlinkManifest name) :=
  { hthinned with
    evolves := fun hsteady hstart =>
      hsteady.frame files _ rfl rfl rfl (hthinned.evolves hsteady hstart)
    markers := fun other marker hmarker => by
      rw [get_unlinkManifest] at hmarker
      split at hmarker
      · exact nomatch hmarker
      · exact hthinned.markers other marker hmarker
    kept := fun other hsafe => by
      refine ⟨?_, (hthinned.kept other hsafe).2⟩
      rw [get_unlinkManifest, if_neg, (hthinned.kept other hsafe).1]
      exact fun heq => hdoom (heq ▸ hsafe) }

/-- How a body ends whose errors are passed over: with a value, or with such an error. -/
def Passes {α : Type} (value : α → Prop) (invariant : Files → Prop) (result : Except Raised α)
    (now : Files) : Prop :=
  invariant now ∧ match result with
    | .ok found => value found
    | .error error => error.skipped = true

/-- Reading a manifest gives the generation it is named for, or an error that is passed over. -/
theorem readGeneration_ends {site : Site} {invariant : Files → Prop}
    (hnamed : ∀ marker, (reach (schedule site) files).markers.get name = some marker →
      ∀ generation, marker.manifest.generation = some generation → generation = name)
    (hinvariant : invariant (reach (schedule site) files)) :
    Ends schedule (readGeneration site name) files
      (Passes (fun generation => generation = name) invariant) fun _ => invariant := by
  unfold readGeneration
  refine Ends.bind (Passes (fun manifest : Manifest => ∀ generation,
      manifest.generation = some generation → generation = name) invariant)
    (Ends.inspect (fun _ manifest hmanifest => ?_) (fun _ _ => ⟨hinvariant, rfl⟩)
      (fun _ => ⟨hinvariant, rfl⟩) fun _ => hinvariant) ?_ fun _ _ herror => herror
  · obtain ⟨marker, hmarker, rfl⟩ := Option.map_eq_some_iff.mp hmanifest
    exact ⟨hinvariant, hnamed marker hmarker⟩
  · rintro manifest read ⟨hread, hgeneration⟩
    cases hcase : manifest.generation with
    | none => exact Ends.raise ⟨hread, rfl⟩
    | some generation => exact Ends.pure ⟨hread, hgeneration generation hcase⟩

/-- The body of a round: the pair that a manifest names is removed. -/
theorem unlinkPair_ends (hnamed : start.Named) (hdoom : ¬ safe name)
    (hthinned : Thinned schedule safe start files) :
    Ends schedule
      (handle
        (do
          let generation ← readGeneration (.readManifest name) name
          eachRole fun role => update (.unlinkCopy name role) .osError fun files =>
            some (files.unlinkFinal generation role))
        fun error => if error.skipped then pure () else raise error) files
      (Proceeds schedule
        (fun _ now => Thinned schedule safe start now ∧ now.markers = files.markers)
        (Thinned schedule safe start))
      fun _ => Thinned schedule safe start := by
  let invariant : Files → Prop := fun now =>
    Thinned schedule safe start now ∧ now.markers = files.markers
  have hreached : ∀ (site : Site) {now : Files}, invariant now →
      invariant (reach (schedule site) now) := fun site now hnow =>
    ⟨hnow.1.reached site, (markers_reach _ _).trans hnow.2⟩
  have hunlink : ∀ (site : Site) (role : Role) {now : Files}, invariant now →
      Ends schedule (update site .osError fun found => some (found.unlinkFinal name role)) now
        (Passes (fun _ => True) invariant) fun _ => invariant := by
    intro site role now hnow
    have hsite := hreached site hnow
    exact Ends.update_some (fun _ => ⟨⟨hsite.1.unlinkFinal hdoom role, hsite.2⟩, trivial⟩)
      (fun _ => ⟨hsite, rfl⟩) fun _ => hsite
  have hhandled : Ends schedule
      (handle
        (do
          let generation ← readGeneration (.readManifest name) name
          eachRole fun role => update (.unlinkCopy name role) .osError fun files =>
            some (files.unlinkFinal generation role))
        fun error => if error.skipped then pure () else raise error) files
      (Proceeds schedule (fun _ => invariant) (Thinned schedule safe start))
      fun _ => invariant := by
    refine Ends.handle (Passes (fun _ => True) invariant) ?_ (fun _ _ hvalue => hvalue.1) ?_
    · refine Ends.bind _ (readGeneration_ends (fun marker hmarker generation hgeneration => ?_)
        (hreached _ ⟨hthinned, rfl⟩)) ?_ fun _ _ herror => herror
      · rw [markers_reach] at hmarker
        have hstart := hthinned.markers name marker hmarker
        rw [hnamed marker (Table.mem_of_get hstart) generation hgeneration]
        exact Table.key_of_get hstart
      · rintro _ read ⟨hread, rfl⟩
        unfold eachRole
        exact Ends.bind _ (hunlink _ .main hread) (fun _ now hnow => hunlink _ .relay hnow.1)
          fun _ _ herror => herror
    · rintro error failed ⟨hfailed, hskipped⟩
      rw [if_pos hskipped]
      exact Ends.pure hfailed
  exact hhandled.mono (fun _ _ hpost => hpost) fun _ _ hstop => hstop.1

theorem pruneEach_ends (hnamed : start.Named) {doomed : List Marker}
    (hdoomed : ∀ marker ∈ doomed, ¬ safe marker.name)
    (hthinned : Thinned schedule safe start files) :
    Ends schedule (pruneEach doomed) files
      (Proceeds schedule
        (fun _ now => Thinned schedule safe start now ∧
          (∀ name, files.markers.get name = none → now.markers.get name = none) ∧
          ∀ marker ∈ doomed, now.markers.get marker.name = none)
        (Thinned schedule safe start))
      fun _ => Thinned schedule safe start := by
  induction doomed generalizing files with
  | nil => exact Ends.pure ⟨hthinned, fun _ hnone => hnone, fun _ hmarker => nomatch hmarker⟩
  | cons marker rest ih =>
    have hdoom := hdoomed marker List.mem_cons_self
    unfold pruneEach
    refine Ends.proceeds_bind _ (unlinkPair_ends hnamed hdoom hthinned) ?_
    rintro - unpaired ⟨hunpaired, hmarkers⟩
    have hreached := hunpaired.reached (.unlinkManifest marker.name)
    refine Ends.proceeds_bind (fun _ now => Thinned schedule safe start now ∧
        ∀ name, now.markers.get name =
          if name = marker.name then none else files.markers.get name)
      (Ends.proceeds_update ⟨_, rfl, hreached.unlinkManifest hdoom, fun name => ?_⟩
        hreached) ?_
    · rw [get_unlinkManifest, markers_reach, hmarkers]
    rintro - unmarked ⟨hunmarked, hget⟩
    refine (ih (List.forall_mem_cons.mp hdoomed).2
      hunmarked).mono ?_ fun _ _ hstop => hstop
    rintro (error | value) now hnow
    · exact hnow
    · obtain ⟨hthin, hgone, hrest⟩ := hnow
      refine ⟨hthin, fun name hnone => hgone name ?_, fun other hother => ?_⟩
      · rw [hget]
        split
        · rfl
        · exact hnone
      · rcases List.mem_cons.mp hother with rfl | hmem
        · exact hgone other.name (by rw [hget, if_pos rfl])
        · exact hrest other hmem

theorem unlinkFiles_ends {old : List Copy} (hdoom : ∀ name, ¬ safe name)
    (hthinned : Thinned schedule safe start files) :
    Ends schedule (unlinkFiles old) files
      (Proceeds schedule
        (fun _ now => Thinned schedule safe start now ∧ now.markers = files.markers)
        (Thinned schedule safe start))
      fun _ => Thinned schedule safe start := by
  induction old generalizing files with
  | nil => exact Ends.pure ⟨hthinned, rfl⟩
  | cons copy rest ih =>
    unfold unlinkFiles
    have hreached := hthinned.reached (.unlinkFile copy.generation copy.role)
    refine Ends.proceeds_bind (fun _ now => Thinned schedule safe start now ∧
        now.markers = files.markers)
      (Ends.proceeds_update ⟨_, rfl, hreached.unlinkFinal (hdoom _) _, markers_reach _ _⟩
        hreached) ?_
    rintro - unlinked ⟨hunlinked, hmarkers⟩
    exact hmarkers ▸ ih hunlinked

/-- The generation that pruning is to keep. -/
def Files.Spared (files : Files) (keep name : ℕ) : Prop :=
  keep ≠ 0 ∧ ∃ marker, files.Newest marker ∧ marker.name = name

theorem pruneOldSnapshots_ends (hnamed : start.Named) (keep : ℕ) :
    Ends schedule (pruneOldSnapshots keep) start
      (Proceeds schedule
        (fun _ now => Thinned schedule (start.Spared keep) start now ∧
          (keep = 0 → now.markers.rows = []))
        (Thinned schedule (start.Spared keep) start))
      fun _ => Thinned schedule (start.Spared keep) start := by
  have hstart := (Thinned.refl schedule (start.Spared keep) start).reached .globManifests
  unfold pruneOldSnapshots
  refine Ends.proceeds_bind (fun markers now => Thinned schedule (start.Spared keep) start now ∧
      now.markers = start.markers ∧ markers = start.listManifests)
    (Ends.inspect_some (fun _ => ⟨hstart, markers_reach _ _, ?_⟩)
      (fun hfault => ⟨hstart, not_faultless hfault⟩) fun _ => hstart) ?_
  · rw [Files.listManifests, markers_reach, Files.listManifests]
  rintro _ listed ⟨hlisted, hmarkers, rfl⟩
  have hdoomed : ∀ marker ∈ start.listManifests.drop keep, ¬ start.Spared keep marker.name := by
    rintro marker hmarker ⟨hkeep, newest, hnewest, hname⟩
    rcases start.listManifests_cases with ⟨-, hnil⟩ | ⟨first, older, hlist, hfirst, holder⟩
    · rw [hnil, List.drop_nil] at hmarker
      exact List.not_mem_nil hmarker
    · obtain ⟨count, rfl⟩ := Nat.exists_eq_succ_of_ne_zero hkeep
      rw [hlist, List.drop_succ_cons] at hmarker
      have hlt := (holder marker (List.mem_of_mem_drop hmarker)).2
      rw [hfirst.eq hnewest, hname] at hlt
      exact lt_irrefl _ hlt
  refine Ends.proceeds_bind _ (pruneEach_ends hnamed hdoomed hlisted) ?_
  rintro - pruned ⟨hpruned, hgone, hremoved⟩
  have hempty : keep = 0 → pruned.markers.rows = [] := by
    rintro rfl
    refine List.eq_nil_iff_forall_not_mem.mpr fun marker hmarker => ?_
    have hget := Table.get_of_mem hmarker
    have hbefore := Table.mem_of_get (hpruned.markers _ marker hget)
    have hnone := hremoved marker (Files.mem_listManifests.mpr hbefore)
    exact nomatch hget.symm.trans hnone
  split
  · next hisEmpty =>
      have hnil : start.listManifests = [] := List.isEmpty_iff.mp hisEmpty
      have hdoom : ∀ name, ¬ start.Spared keep name := by
        rintro name ⟨-, newest, hnewest, -⟩
        have hmem := Files.mem_listManifests.mpr hnewest.1
        rw [hnil] at hmem
        exact List.not_mem_nil hmem
      have hreached := hpruned.reached .globFiles
      refine Ends.proceeds_bind (fun _ now => Thinned schedule (start.Spared keep) start now ∧
          now.markers = pruned.markers)
        (Ends.inspect_some (fun _ => ⟨hreached, markers_reach _ _⟩)
          (fun hfault => ⟨hreached, not_faultless hfault⟩) fun _ => hreached) ?_
      rintro old found ⟨hfound, hsame⟩
      refine (unlinkFiles_ends hdoom hfound).mono ?_ fun _ _ hstop => hstop
      rintro (error | value) now hnow
      · exact hnow
      · exact ⟨hnow.1, fun hkeep => by rw [hnow.2, hsame, hempty hkeep]⟩
  · exact Ends.proceeds_pure ⟨hpruned, hempty⟩

end Prune

theorem honest_readGeneration (site : Site) (name : ℕ) : Honest (readGeneration site name) := by
  unfold readGeneration
  refine honest_bind (honest_inspect _ _ _) fun manifest => ?_
  cases manifest.generation with
  | none => exact honest_raise _
  | some generation => exact honest_pure _

theorem honest_pruneEach (doomed : List Marker) : Honest (pruneEach doomed) := by
  induction doomed with
  | nil => exact honest_pure _
  | cons marker rest ih =>
    unfold pruneEach
    refine honest_bind (honest_handle ?_ fun error => ?_) fun _ =>
      honest_bind (honest_update _ _ _) fun _ => ih
    · exact honest_bind (honest_readGeneration _ _) fun _ =>
        honest_eachRole fun role => honest_update _ _ _
    · split
      · exact honest_pure _
      · exact honest_raise _

theorem honest_unlinkFiles (old : List Copy) : Honest (unlinkFiles old) := by
  induction old with
  | nil => exact honest_pure _
  | cons copy rest ih =>
    unfold unlinkFiles
    exact honest_bind (honest_update _ _ _) fun _ => ih

theorem honest_pruneOldSnapshots (keep : ℕ) : Honest (pruneOldSnapshots keep) := by
  unfold pruneOldSnapshots
  refine honest_bind (honest_inspect _ _ _) fun markers =>
    honest_bind (honest_pruneEach _) fun _ => ?_
  split
  · exact honest_bind (honest_inspect _ _ _) fun _ => honest_unlinkFiles _
  · exact honest_pure _

end Pallium.Snapshot
