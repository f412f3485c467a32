import Pallium.Snapshot.Files

/-!
# Publishing a generation

`create_snapshot` copies both databases, moves the copies to their final names and then
publishes the generation by its manifest; a failure on the way removes what it has written.
What a copy is good for is left open: it is any property that the backup establishes and that
the other writers leave alone.  Whatever happens to a call, the other generations stay as they
are, every copy under a final name is good, and the manifest appears only after both copies.
-/

namespace Pallium.Snapshot

open Interrupted Program

namespace Files

/-- `sqlite3.connect`, which makes the file of a database that is not there. -/
def connect (role : Role) (files : Files) : Files :=
  match files.live role with
  | some _ => files
  | none =>
    { files with live := Function.update files.live role (some ⟨.blank, files.clock⟩) }

def setTmp (timestamp : ℕ) (role : Role) (file : Option Stamped) (files : Files) : Files :=
  { files with
    tmp := Function.update files.tmp timestamp
      (Function.update (files.tmp timestamp) role file) }

/-- `sqlite3.connect` to the target of a backup. -/
def openTmp (timestamp : ℕ) (role : Role) (files : Files) : Files :=
  match files.tmp timestamp role with
  | some _ => files
  | none => files.setTmp timestamp role (some ⟨.blank, files.clock⟩)

/-- `src.backup(dst)`. -/
def backup (timestamp : ℕ) (role : Role) (files : Files) : Option Files :=
  (files.live role).map fun database =>
    files.setTmp timestamp role (some ⟨database.image.backup, files.clock⟩)

/-- `os.replace(tmp[role], final[role])`. -/
def publish (timestamp : ℕ) (role : Role) (files : Files) : Option Files :=
  (files.tmp timestamp role).map fun file =>
    { files.setTmp timestamp role none with
      finals := files.finals.put ⟨timestamp, role, file⟩ }

def setManifestTmp (timestamp : ℕ) (manifest : Option Manifest) (files : Files) : Files :=
  { files with manifestTmp := Function.update files.manifestTmp timestamp manifest }

/-- `os.replace(manifest_tmp, manifest)`. -/
def publishManifest (timestamp : ℕ) (files : Files) : Option Files :=
  (files.manifestTmp timestamp).map fun manifest =>
    { files.setManifestTmp timestamp none with
      markers := files.markers.put ⟨timestamp, manifest⟩ }

def unlinkFinal (generation : ℕ) (role : Role) (files : Files) : Files :=
  { files with finals := files.finals.erase (generation, role) }

end Files

section Source

/-- One round of the copying loop of `create_snapshot`. -/
def copyRole (timestamp : ℕ) (role : Role) : Action Unit := do
  update (.connect role) .sqliteError fun files => some (files.connect role)
  update (.openTmp role) .sqliteError fun files => some (files.openTmp timestamp role)
  update (.backup role) .sqliteError (Files.backup timestamp role)
  let sound ← validateSnapshot (.validateTmp role) fun files => files.tmp timestamp role
  if sound then pure ()
  else raise (.runtimeError ("snapshot validation failed for " ++ role.name))

/-- The manifest is written under a temporary name and then moved. -/
def publishGeneration (timestamp : ℕ) : Action Unit := do
  update .openManifest .osError fun files =>
    some (files.setManifestTmp timestamp (some ⟨none, files.clock⟩))
  update .writeManifest .osError fun files =>
    some (files.setManifestTmp timestamp (some ⟨some timestamp, files.clock⟩))
  update .publishManifest .osError (Files.publishManifest timestamp)

/-- `for path in (*tmp.values(), *final.values(), manifest_tmp): path.unlink(missing_ok=True)`. -/
def discard (timestamp : ℕ) : Action Unit := do
  eachRole fun role =>
    update (.unlinkTmp role) .osError fun files => some (files.setTmp timestamp role none)
  eachRole fun role =>
    update (.unlinkFinal role) .osError fun files => some (files.unlinkFinal timestamp role)
  update .unlinkManifestTmp .osError fun files => some (files.setManifestTmp timestamp none)

/-- `create_snapshot` of the pair. -/
def createSnapshot : Action ℕ := do
  let timestamp ← observe Files.clock
  handle
    (do
      eachRole (copyRole timestamp)
      eachRole fun role => update (.publish role) .osError (Files.publish timestamp role)
      publishGeneration timestamp
      pure timestamp)
    fun error => do
      discard timestamp
      raise error

end Source

/-- A property that the other writers, the passing of time, connecting and work in the snapshot
directory leave alone. -/
structure Steady (property : Files → Prop) : Prop where
  write : ∀ event files, property files → property (files.write event)
  tick : ∀ files, property files → property files.tick
  connect : ∀ role files, property files → property (files.connect role)
  frame : ∀ files after : Files, after.clock = files.clock → after.live = files.live →
    after.wal = files.wal → property files → property after

/-- A property of the live databases, and what is asked of their copies. -/
structure Regime (base : Files → Prop) (good : Role → Stamped → Files → Prop) : Prop where
  live : Steady base
  copies : ∀ role file, Steady fun files => base files ∧ good role file files
  backup : ∀ role database files, base files → files.tick.live role = some database →
    good role ⟨database.image.backup, files.tick.clock⟩ files.tick

section Reach

variable (turn : Turn Event) (files : Files)

theorem clock_lt_reach : files.clock < (reach turn files).clock := by
  have hreach : files.clock + 1 ≤ (reach turn files).clock := by
    unfold reach
    rw [Files.shared_tick, Files.clock_tick]
    refine Nat.succ_le_succ ?_
    generalize turn.others = events
    induction events generalizing files with
    | nil => exact le_rfl
    | cons event rest ih =>
      refine le_trans ?_ (ih (files.write event))
      rw [Files.clock_write]
      exact Nat.le_succ _
  exact hreach

@[simp]
theorem markers_reach : (reach turn files).markers = files.markers :=
  reach_induction (fun now : Files => now.markers = files.markers) turn
    (fun event _ hnow => (Files.markers_write event).trans hnow) (fun _ hnow => hnow) rfl

@[simp]
theorem finals_reach : (reach turn files).finals = files.finals :=
  reach_induction (fun now : Files => now.finals = files.finals) turn
    (fun event _ hnow => (Files.finals_write event).trans hnow) (fun _ hnow => hnow) rfl

@[simp]
theorem tmp_reach : (reach turn files).tmp = files.tmp :=
  reach_induction (fun now : Files => now.tmp = files.tmp) turn
    (fun event _ hnow => (Files.tmp_write event).trans hnow) (fun _ hnow => hnow) rfl

@[simp]
theorem manifestTmp_reach : (reach turn files).manifestTmp = files.manifestTmp :=
  reach_induction (fun now : Files => now.manifestTmp = files.manifestTmp) turn
    (fun event _ hnow => (Files.manifestTmp_write event).trans hnow) (fun _ hnow => hnow) rfl

@[simp]
theorem copyOf_reach (generation : ℕ) (role : Role) :
    (reach turn files).copyOf generation role = files.copyOf generation role := by
  rw [Files.copyOf, finals_reach, Files.copyOf]

theorem live_reach_ne_none {role : Role} (hlive : files.live role ≠ none) :
    (reach turn files).live role ≠ none :=
  reach_induction (fun now : Files => now.live role ≠ none) turn
    (fun event _ hnow => fun hnone => hnow ((Files.live_write_eq_none event role).mp hnone))
    (fun _ hnow => hnow) hlive

theorem Steady.reach {property : Files → Prop} (hsteady : Steady property)
    (hfiles : property files) : property (reach turn files) :=
  reach_induction property turn (fun event now => hsteady.write event now) hsteady.tick hfiles

end Reach

theorem connect_cases (role : Role) (files : Files) :
    (files.live role ≠ none ∧ files.connect role = files) ∨
      (files.live role = none ∧ files.connect role =
        { files with live := Function.update files.live role (some ⟨.blank, files.clock⟩) }) := by
  unfold Files.connect
  cases hlive : files.live role with
  | none => exact Or.inr ⟨rfl, rfl⟩
  | some database => exact Or.inl ⟨Option.some_ne_none database, rfl⟩

/-- A file with a sound database that was written after the given time. -/
def Stamped.Fresh (file : Stamped) (time : ℕ) : Prop := file.image.valid = true ∧ time < file.time

section Create

variable {base : Files → Prop} {good : Role → Stamped → Files → Prop} {schedule : Schedule}
  {start : Files} {timestamp : ℕ} {copied published : List Role} {files : Files}

variable {role : Role}

/-- The state of a call of `create_snapshot` that has copied some databases and published some
of the copies. -/
structure Underway (base : Files → Prop) (good : Role → Stamped → Files → Prop)
    (schedule : Schedule) (start : Files) (timestamp : ℕ) (copied published : List Role)
    (files : Files) : Prop where
  holds : base files
  clock : timestamp < files.clock
  sound : ∀ generation role file, files.copyOf generation role = some file → good role file files
  markers : files.markers = start.markers
  others : ∀ generation ≠ timestamp, ∀ role,
    files.copyOf generation role = start.copyOf generation role
  copied : ∀ role ∈ copied, ∃ file, files.tmp timestamp role = some file ∧
    file.Fresh timestamp ∧ good role file files
  published : ∀ role ∈ published, ∃ file, files.copyOf timestamp role = some file ∧
    file.Fresh timestamp
  quiet : Quiet schedule → (∀ role, start.live role ≠ none) →
    files.live = start.live ∧ files.wal = start.wal

section

variable (hunderway : Underway base good schedule start timestamp copied published files)
include hunderway

/-- What survives every steady change survives one that leaves the directory as it is, up to
some files of the generation under way. -/
theorem Underway.next (hregime : Regime base good) {after : Files} {copied' published' : List Role}
    (hsteady : ∀ {property : Files → Prop}, Steady property → property files → property after)
    (hclock : files.clock ≤ after.clock) (hmarkers : after.markers = files.markers)
    (hquiet : Quiet schedule → (∀ role, files.live role ≠ none) →
      after.live = files.live ∧ after.wal = files.wal)
    (hothers : ∀ generation role, (generation ≠ timestamp ∨ role ∉ published' ∧
        after.copyOf generation role ≠ none) →
      after.copyOf generation role = files.copyOf generation role)
    (hcopied : ∀ role ∈ copied', (role ∈ copied ∧
        after.tmp timestamp role = files.tmp timestamp role) ∨
      ∃ file, after.tmp timestamp role = some file ∧ file.Fresh timestamp ∧
        good role file after)
    (hpublished : ∀ role ∈ published', (role ∈ published ∧
        after.copyOf timestamp role = files.copyOf timestamp role) ∨
      ∃ file, after.copyOf timestamp role = some file ∧ file.Fresh timestamp ∧
        good role file after) :
    Underway base good schedule start timestamp copied' published' after where
  holds := hsteady hregime.live hunderway.holds
  clock := hunderway.clock.trans_le hclock
  sound generation role file hcopy := by
    have hkept : files.copyOf generation role = some file → good role file after := fun hbefore =>
      (hsteady (hregime.copies role file)
        ⟨hunderway.holds, hunderway.sound generation role file hbefore⟩).2
    by_cases hgeneration : generation = timestamp
    · subst hgeneration
      by_cases hrole : role ∈ published'
      · rcases hpublished role hrole with ⟨-, hsame⟩ | ⟨found, hfound, -, hgood⟩
        · exact hkept (hsame ▸ hcopy)
        · rw [hfound] at hcopy
          exact Option.some.inj hcopy ▸ hgood
      · refine hkept ?_
        rw [← hothers generation role (Or.inr ⟨hrole, by simp [hcopy]⟩), hcopy]
    · exact hkept (hothers generation role (Or.inl hgeneration) ▸ hcopy)
  markers := hmarkers.trans hunderway.markers
  others generation hne role :=
    (hothers generation role (Or.inl hne)).trans (hunderway.others generation hne role)
  copied role hrole := by
    rcases hcopied role hrole with ⟨hbefore, hsame⟩ | hnew
    · obtain ⟨file, hfile, hvalid, hgood⟩ := hunderway.copied role hbefore
      refine ⟨file, hsame.trans hfile, hvalid, ?_⟩
      exact (hsteady (hregime.copies role file) ⟨hunderway.holds, hgood⟩).2
    · exact hnew
  published role hrole := by
    rcases hpublished role hrole with ⟨hbefore, hsame⟩ | ⟨file, hfile, hvalid, -⟩
    · obtain ⟨file, hfile, hvalid⟩ := hunderway.published role hbefore
      exact ⟨file, hsame.trans hfile, hvalid⟩
    · exact ⟨file, hfile, hvalid⟩
  quiet hschedule hlive := by
    obtain ⟨hsame, hwal⟩ := hunderway.quiet hschedule hlive
    obtain ⟨hafter, hafterWal⟩ := hquiet hschedule fun role => hsame ▸ hlive role
    exact ⟨hafter.trans hsame, hafterWal.trans hwal⟩

theorem Underway.forget : Underway base good schedule start timestamp [] [] files :=
  { hunderway with
    copied := List.forall_mem_nil _
    published := List.forall_mem_nil _ }

theorem Underway.reached (hregime : Regime base good) (site : Site) :
    Underway base good schedule start timestamp copied published
      (reach (schedule site) files) :=
  hunderway.next hregime (fun hsteady hfiles => hsteady.reach _ _ hfiles)
    (clock_lt_reach _ _).le (markers_reach _ _)
    (fun hquiet _ => by rw [hquiet.reach]; exact ⟨rfl, rfl⟩)
    (fun generation role _ => copyOf_reach _ _ generation role)
    (fun role hrole => Or.inl ⟨hrole, by rw [tmp_reach]⟩)
    (fun role hrole => Or.inl ⟨hrole, copyOf_reach _ _ timestamp role⟩)

theorem Underway.connect (hregime : Regime base good) (role : Role) :
    Underway base good schedule start timestamp copied published (files.connect role) := by
  have hfields : (files.connect role).clock = files.clock ∧
      (files.connect role).markers = files.markers ∧
      (files.connect role).finals = files.finals ∧ (files.connect role).tmp = files.tmp := by
    rcases connect_cases role files with ⟨-, hsame⟩ | ⟨-, hnew⟩
    · rw [hsame]
      exact ⟨rfl, rfl, rfl, rfl⟩
    · rw [hnew]
      exact ⟨rfl, rfl, rfl, rfl⟩
  obtain ⟨hclock, hmarkers, hfinals, htmp⟩ := hfields
  have hcopyOf : ∀ generation role',
      (files.connect role).copyOf generation role' = files.copyOf generation role' :=
    fun generation role' => by rw [Files.copyOf, hfinals, Files.copyOf]
  refine hunderway.next hregime (fun hsteady hfiles => hsteady.connect role files hfiles)
    hclock.ge hmarkers (fun _ hlive => ?_) (fun generation role' _ => hcopyOf generation role')
    (fun role' hrole => Or.inl ⟨hrole, by rw [htmp]⟩)
    (fun role' hrole => Or.inl ⟨hrole, hcopyOf timestamp role'⟩)
  rcases connect_cases role files with ⟨-, hsame⟩ | ⟨hnone, -⟩
  · rw [hsame]
    exact ⟨rfl, rfl⟩
  · exact absurd hnone (hlive role)

/-- Work on the files of the generation under way. -/
theorem Underway.work (hregime : Regime base good) {after : Files} {copied' published' : List Role}
    (hclock : after.clock = files.clock) (hlive : after.live = files.live)
    (hwal : after.wal = files.wal) (hmarkers : after.markers = files.markers)
    (hothers : ∀ generation role, (generation ≠ timestamp ∨ role ∉ published' ∧
        after.copyOf generation role ≠ none) →
      after.copyOf generation role = files.copyOf generation role)
    (hcopied : ∀ role ∈ copied', (role ∈ copied ∧
        after.tmp timestamp role = files.tmp timestamp role) ∨
      ∃ file, after.tmp timestamp role = some file ∧ file.Fresh timestamp ∧
        good role file files)
    (hpublished : ∀ role ∈ published', (role ∈ published ∧
        after.copyOf timestamp role = files.copyOf timestamp role) ∨
      ∃ file, after.copyOf timestamp role = some file ∧ file.Fresh timestamp ∧
        good role file files) :
    Underway base good schedule start timestamp copied' published' after := by
  have hframe : ∀ {property : Files → Prop}, Steady property → property files → property after :=
    fun hsteady => hsteady.frame files after hclock hlive hwal
  have hgood : ∀ role file, good role file files → good role file after :=
    fun role file hfile => (hframe (hregime.copies role file) ⟨hunderway.holds, hfile⟩).2
  refine hunderway.next hregime hframe hclock.ge hmarkers (fun _ _ => ⟨hlive, hwal⟩) hothers
    (fun role hrole => ?_) (fun role hrole => ?_)
  · exact (hcopied role hrole).imp_right fun ⟨file, hfile, hvalid, hcopy⟩ =>
      ⟨file, hfile, hvalid, hgood role file hcopy⟩
  · exact (hpublished role hrole).imp_right fun ⟨file, hfile, hvalid, hcopy⟩ =>
      ⟨file, hfile, hvalid, hgood role file hcopy⟩

end

@[simp]
theorem tmp_setTmp_self (role : Role) (file : Option Stamped) :
    (files.setTmp timestamp role file).tmp timestamp role = file := by
  simp [Files.setTmp]

theorem tmp_setTmp_of_ne {other : Role} (file : Option Stamped) (hne : other ≠ role) :
    (files.setTmp timestamp role file).tmp timestamp other = files.tmp timestamp other := by
  simp [Files.setTmp, hne]

section

variable (hunderway : Underway base good schedule start timestamp copied published files)
  (hregime : Regime base good) (hrole : role ∉ copied)
include hunderway hregime hrole

theorem Underway.setTmp (file : Option Stamped) :
    Underway base good schedule start timestamp copied published
      (files.setTmp timestamp role file) := by
  refine hunderway.work hregime rfl rfl rfl rfl (fun _ _ _ => rfl) (fun other hother => ?_)
    fun other hother => Or.inl ⟨hother, rfl⟩
  have hne : other ≠ role := fun heq => hrole (heq ▸ hother)
  exact Or.inl ⟨hother, tmp_setTmp_of_ne file hne⟩

theorem Underway.openTmp :
    Underway base good schedule start timestamp copied published
      (files.openTmp timestamp role) := by
  unfold Files.openTmp
  cases files.tmp timestamp role with
  | none => exact hunderway.setTmp hregime hrole _
  | some _ => exact hunderway

end

theorem live_openTmp (role : Role) : (files.openTmp timestamp role).live = files.live := by
  unfold Files.openTmp
  cases files.tmp timestamp role <;> rfl

theorem exists_tick_reach (turn : Turn Event) (files : Files) :
    ∃ before : Files, reach turn files = before.tick ∧
      ∀ {property : Files → Prop}, Steady property → property files → property before := by
  refine ⟨turn.others.foldl (fun now event => Shared.arrive event now) files, rfl, ?_⟩
  intro property hsteady hfiles
  generalize turn.others = events
  induction events generalizing files with
  | nil => exact hfiles
  | cons event rest ih => exact ih (files.write event) (hsteady.write event files hfiles)

/-- A copy that has just been taken is good. -/
theorem Underway.backup (hunderway : Underway base good schedule start timestamp copied published
      files) (hregime : Regime base good) (hrole : role ∉ copied) (site : Site) {database : Stamped}
    (hlive : (reach (schedule site) files).live role = some database) :
    Underway base good schedule start timestamp (role :: copied) published
      ((reach (schedule site) files).setTmp timestamp role
        (some ⟨database.image.backup, (reach (schedule site) files).clock⟩)) := by
  have hreached := hunderway.reached hregime site
  obtain ⟨before, hreach, hsteady⟩ := exists_tick_reach (schedule site) files
  have hgood : good role ⟨database.image.backup, (reach (schedule site) files).clock⟩
      (reach (schedule site) files) := by
    rw [hreach]
    exact hregime.backup role database before (hsteady hregime.live hunderway.holds)
      (hreach ▸ hlive)
  refine hreached.work hregime rfl rfl rfl rfl (fun _ _ _ => rfl) (fun other hother => ?_)
    fun other hother => Or.inl ⟨hother, rfl⟩
  rcases List.mem_cons.mp hother with rfl | hcopied
  · exact Or.inr ⟨_, tmp_setTmp_self other _, ⟨Image.valid_backup _, hreached.clock⟩, hgood⟩
  · have hne : other ≠ role := fun heq => hrole (heq ▸ hcopied)
    exact Or.inl ⟨hcopied, tmp_setTmp_of_ne _ hne⟩

theorem live_connect (role : Role) (files : Files) : (files.connect role).live role ≠ none := by
  rcases connect_cases role files with ⟨hlive, hsame⟩ | ⟨-, hnew⟩
  · rw [hsame]
    exact hlive
  · rw [hnew]
    simp

theorem copyRole_ends (hregime : Regime base good) (hrole : role ∉ copied)
    (hunderway : Underway base good schedule start timestamp copied [] files) :
    Ends schedule (copyRole timestamp role) files
      (Proceeds schedule
        (fun _ => Underway base good schedule start timestamp (role :: copied) [])
        (Underway base good schedule start timestamp [] []))
      fun _ => Underway base good schedule start timestamp [] [] := by
  unfold copyRole
  refine Ends.proceeds_bind (fun _ now =>
      Underway base good schedule start timestamp copied [] now ∧ now.live role ≠ none)
    (Ends.proceeds_update ⟨_, rfl, ?_⟩ (hunderway.reached hregime _).forget) ?_
  · exact ⟨(hunderway.reached hregime _).connect hregime role, live_connect role _⟩
  rintro - connected ⟨hconnected, hlive⟩
  refine Ends.proceeds_bind (fun _ now =>
      Underway base good schedule start timestamp copied [] now ∧ now.live role ≠ none)
    (Ends.proceeds_update ⟨_, rfl, ?_⟩ (hconnected.reached hregime _).forget) ?_
  · refine ⟨(hconnected.reached hregime _).openTmp hregime hrole, ?_⟩
    rw [live_openTmp]
    exact live_reach_ne_none _ _ hlive
  rintro - opened ⟨hopened, hlive⟩
  obtain ⟨database, hdatabase⟩ :=
    Option.ne_none_iff_exists'.mp (live_reach_ne_none (schedule (.backup role)) opened hlive)
  refine Ends.proceeds_bind (fun _ =>
      Underway base good schedule start timestamp (role :: copied) [])
    (Ends.proceeds_update ⟨_, ?_, hopened.backup hregime hrole _ hdatabase⟩
      (hopened.reached hregime _).forget) ?_
  · rw [Files.backup, hdatabase, Option.map_some]
  rintro - written hwritten
  have hreached := hwritten.reached hregime (.validateTmp role)
  obtain ⟨file, hfile, hvalid, -⟩ := hreached.copied role List.mem_cons_self
  refine Ends.proceeds_bind (fun sound now =>
      Underway base good schedule start timestamp (role :: copied) [] now ∧
        (sound = false → ¬ Faultless schedule))
    (validateSnapshot_ends (fun _ => ⟨hreached, fun hunsound => ?_⟩)
      (fun hfault => ⟨hreached, fun _ => not_faultless hfault⟩) fun _ => hreached.forget) ?_
  · rw [hfile, Option.map_some, Option.getD_some, hvalid.1] at hunsound
    exact nomatch hunsound
  rintro sound validated ⟨hvalidated, hunsound⟩
  cases sound with
  | true => exact Ends.proceeds_pure hvalidated
  | false => exact Ends.raise ⟨hvalidated.forget, hunsound rfl⟩

section

variable (hunderway : Underway base good schedule start timestamp copied published files)
  (hregime : Regime base good)
include hunderway hregime

theorem Underway.publish (role : Role) (hrole : role ∈ copied)
    (rest : List Role) (hrest : ∀ other ∈ rest, other ∈ copied ∧ other ≠ role) :
    ∃ after, files.publish timestamp role = some after ∧
      Underway base good schedule start timestamp rest (role :: published) after := by
  obtain ⟨file, hfile, hvalid, hgood⟩ := hunderway.copied role hrole
  have hcopyOf : ∀ generation other, (files.finals.put ⟨timestamp, role, file⟩).get
      (generation, other) = if (generation, other) = (timestamp, role) then
        some ⟨timestamp, role, file⟩ else files.finals.get (generation, other) :=
    fun generation other => Table.get_put _ _ _
  refine ⟨_, by rw [Files.publish, hfile, Option.map_some], ?_⟩
  refine hunderway.work hregime rfl rfl rfl rfl (fun generation other hother => ?_)
    (fun other hother => ?_) fun other hother => ?_
  · have hne : (generation, other) ≠ (timestamp, role) := by
      intro heq
      cases heq
      rcases hother with hne | ⟨hunpublished, -⟩
      · exact hne rfl
      · exact hunpublished List.mem_cons_self
    simp only [Files.copyOf, hcopyOf, if_neg hne]
  · obtain ⟨hcopied, hne⟩ := hrest other hother
    exact Or.inl ⟨hcopied, tmp_setTmp_of_ne none hne⟩
  · by_cases hsame : other = role
    · subst hsame
      refine Or.inr ⟨file, ?_, hvalid, hgood⟩
      simp only [Files.copyOf, hcopyOf, if_true, Option.map_some]
    · refine Or.inl ⟨(List.mem_cons.mp hother).resolve_left hsame, ?_⟩
      have hne : (timestamp, other) ≠ (timestamp, role) := fun heq => hsame (Prod.ext_iff.mp heq).2
      simp only [Files.copyOf, hcopyOf, if_neg hne]

theorem Underway.setManifestTmp (manifest : Option Manifest) :
    Underway base good schedule start timestamp copied published
      (files.setManifestTmp timestamp manifest) :=
  hunderway.work hregime rfl rfl rfl rfl (fun _ _ _ => rfl) (fun _ hrole => Or.inl ⟨hrole, rfl⟩)
    fun _ hrole => Or.inl ⟨hrole, rfl⟩

end

@[simp]
theorem manifestTmp_setManifestTmp (manifest : Option Manifest) :
    (files.setManifestTmp timestamp manifest).manifestTmp timestamp = manifest := by
  simp [Files.setManifestTmp]

/-- The directory with one more manifest. -/
def Files.withMarker (files : Files) (marker : Marker) : Files :=
  { files with markers := files.markers.put marker }

theorem publishGeneration_ends (hregime : Regime base good)
    (hunderway : Underway base good schedule start timestamp [] published files) :
    Ends schedule (publishGeneration timestamp) files
      (Proceeds schedule
        (fun _ now => ∃ time, Underway base good schedule
          (start.withMarker ⟨timestamp, ⟨some timestamp, time⟩⟩) timestamp [] published now)
        (Underway base good schedule start timestamp [] []))
      fun _ => Underway base good schedule start timestamp [] [] := by
  unfold publishGeneration
  refine Ends.proceeds_bind (fun _ => Underway base good schedule start timestamp [] published)
    (Ends.proceeds_update ⟨_, rfl, ?_⟩ (hunderway.reached hregime _).forget) ?_
  · exact (hunderway.reached hregime _).setManifestTmp hregime _
  rintro - opened hopened
  refine Ends.proceeds_bind (fun _ now =>
      Underway base good schedule start timestamp [] published now ∧
        ∃ time, now.manifestTmp timestamp = some ⟨some timestamp, time⟩)
    (Ends.proceeds_update ⟨_, rfl, ?_, _, manifestTmp_setManifestTmp _⟩
      (hopened.reached hregime _).forget) ?_
  · exact (hopened.reached hregime _).setManifestTmp hregime _
  rintro - written ⟨hwritten, time, hmanifest⟩
  have hreached := hwritten.reached hregime .publishManifest
  refine Ends.proceeds_update
    ⟨((reach (schedule .publishManifest) written).setManifestTmp timestamp none).withMarker
      ⟨timestamp, ⟨some timestamp, time⟩⟩, ?_, time, ?_⟩ hreached.forget
  · rw [Files.publishManifest, manifestTmp_reach, hmanifest, Option.map_some]
    rfl
  · have hset := hreached.setManifestTmp hregime none
    have hframe : ∀ {property : Files → Prop}, Steady property →
        property ((reach (schedule .publishManifest) written).setManifestTmp timestamp none) →
        property (((reach (schedule .publishManifest) written).setManifestTmp timestamp
          none).withMarker ⟨timestamp, ⟨some timestamp, time⟩⟩) :=
      fun hsteady => hsteady.frame _ _ rfl rfl rfl
    exact
      { hset with
        holds := hframe hregime.live hset.holds
        sound := fun generation role file hcopy =>
          (hframe (hregime.copies role file)
            ⟨hset.holds, hset.sound generation role file hcopy⟩).2
        markers := congrArg (fun markers : Table Marker => markers.put _) hset.markers
        copied := List.forall_mem_nil _ }

theorem Underway.unlinkFinal (hunderway : Underway base good schedule start timestamp [] [] files)
    (hregime : Regime base good) (role : Role) :
    Underway base good schedule start timestamp [] [] (files.unlinkFinal timestamp role) := by
  have hcopyOf : ∀ generation other, (files.unlinkFinal timestamp role).copyOf generation other =
      if (generation, other) = (timestamp, role) then none
      else files.copyOf generation other := by
    intro generation other
    simp only [Files.copyOf, Files.unlinkFinal, Table.get_erase]
    split <;> rfl
  refine hunderway.work hregime rfl rfl rfl rfl (fun generation other hother => ?_)
    (List.forall_mem_nil _) fun _ hrole => absurd hrole List.not_mem_nil
  rw [hcopyOf, if_neg]
  intro heq
  rcases hother with hne | ⟨-, hsome⟩
  · exact hne (Prod.ext_iff.mp heq).1
  · exact hsome (by rw [hcopyOf, if_pos heq])

theorem discard_ends (hregime : Regime base good)
    (hunderway : Underway base good schedule start timestamp [] [] files) :
    Ends schedule (discard timestamp) files
      (Proceeds schedule (fun _ => Underway base good schedule start timestamp [] [])
        (Underway base good schedule start timestamp [] []))
      fun _ => Underway base good schedule start timestamp [] [] := by
  have hround : ∀ {site : Site} {effect : Files → Files} {now : Files},
      Underway base good schedule start timestamp [] [] now →
      (∀ found, Underway base good schedule start timestamp [] [] found →
        Underway base good schedule start timestamp [] [] (effect found)) →
      Ends schedule (update site Raised.osError fun found => some (effect found)) now
        (Proceeds schedule (fun _ => Underway base good schedule start timestamp [] [])
          (Underway base good schedule start timestamp [] []))
        fun _ => Underway base good schedule start timestamp [] [] :=
    fun hnow heffect => Ends.proceeds_update
      ⟨_, rfl, heffect _ (hnow.reached hregime _)⟩ (hnow.reached hregime _)
  have htmp : ∀ role found, Underway base good schedule start timestamp [] [] found →
      Underway base good schedule start timestamp [] [] (found.setTmp timestamp role none) :=
    fun role found hfound => hfound.setTmp hregime List.not_mem_nil none
  have hfinal : ∀ role found, Underway base good schedule start timestamp [] [] found →
      Underway base good schedule start timestamp [] [] (found.unlinkFinal timestamp role) :=
    fun role found hfound => hfound.unlinkFinal hregime role
  unfold discard eachRole
  refine Ends.proceeds_bind _ (Ends.proceeds_bind _ (hround hunderway (htmp .main))
    fun _ now hnow => hround hnow (htmp .relay)) ?_
  rintro - untemporary huntemporary
  refine Ends.proceeds_bind _ (Ends.proceeds_bind _ (hround huntemporary (hfinal .main))
    fun _ now hnow => hround hnow (hfinal .relay)) ?_
  rintro - unpublished hunpublished
  exact hround hunpublished fun found hfound => hfound.setManifestTmp hregime none

/-- A call of `create_snapshot` that returns has added one generation, with both its copies; one
that fails or stops has published nothing, and does not fail without a fault. -/
theorem createSnapshot_ends (hregime : Regime base good) (hbase : base start)
    (hgood : ∀ generation role file, start.copyOf generation role = some file →
      good role file start) :
    Ends schedule createSnapshot start
      (Proceeds schedule
        (fun name now => name = start.clock ∧ ∃ time, Underway base good schedule
          (start.withMarker ⟨name, ⟨some name, time⟩⟩) name [] [.relay, .main] now)
        (Underway base good schedule start start.clock [] []))
      fun _ => Underway base good schedule start start.clock [] [] := by
  have hbegun : Underway base good schedule start start.clock [] [] start.tick :=
    { holds := hregime.live.tick start hbase
      clock := Nat.lt_succ_self _
      sound := fun generation role file hcopy =>
        ((hregime.copies role file).tick start
          ⟨hbase, hgood generation role file hcopy⟩).2
      markers := rfl
      others := fun _ _ _ => rfl
      copied := List.forall_mem_nil _
      published := List.forall_mem_nil _
      quiet := fun _ _ => ⟨rfl, rfl⟩ }
  unfold createSnapshot
  refine Ends.proceeds_bind (fun timestamp now => timestamp = start.clock ∧
    Underway base good schedule start timestamp [] [] now) (Ends.observe ⟨rfl, hbegun⟩) ?_
  rintro _ begun ⟨rfl, hbegun⟩
  refine Ends.handle (Proceeds schedule
      (fun name now => name = start.clock ∧ ∃ time, Underway base good schedule
        (start.withMarker ⟨name, ⟨some name, time⟩⟩) name [] [.relay, .main] now)
      (Underway base good schedule start start.clock [] [])) ?_ (fun _ _ hvalue => hvalue) ?_
  · refine Ends.proceeds_bind
      (fun _ => Underway base good schedule start start.clock [.relay, .main] []) ?_ ?_
    · refine Ends.proceeds_bind _ (copyRole_ends hregime List.not_mem_nil hbegun) ?_
      exact fun _ now hnow => copyRole_ends hregime (by decide) hnow
    rintro - copied hcopied
    refine Ends.proceeds_bind
      (fun _ => Underway base good schedule start start.clock [] [.relay, .main]) ?_ ?_
    · have hmain := (hcopied.reached hregime (.publish .main)).publish hregime .main
        (by decide) [.relay] (by decide)
      refine Ends.proceeds_bind
        (fun _ => Underway base good schedule start start.clock [.relay] [.main])
        (Ends.proceeds_update hmain (hcopied.reached hregime _).forget) ?_
      rintro - half hhalf
      have hrelay := (hhalf.reached hregime (.publish .relay)).publish hregime .relay
        (by decide) [] (by decide)
      exact Ends.proceeds_update hrelay (hhalf.reached hregime _).forget
    rintro - pair hpair
    refine Ends.proceeds_bind _ (publishGeneration_ends hregime hpair) ?_
    exact fun _ now hnow => Ends.proceeds_pure ⟨rfl, hnow⟩
  · rintro error failed ⟨hfailed, hfaulty⟩
    refine Ends.bind _ (discard_ends hregime hfailed) ?_ fun _ _ herror => ⟨herror.1, hfaulty⟩
    exact fun _ now hnow => Ends.raise ⟨hnow, hfaulty⟩

end Create

theorem honest_copyRole (timestamp : ℕ) (role : Role) : Honest (copyRole timestamp role) := by
  unfold copyRole
  refine honest_bind (honest_update _ _ _) fun _ => honest_bind (honest_update _ _ _) fun _ =>
    honest_bind (honest_update _ _ _) fun _ => honest_bind (honest_validateSnapshot _ _) ?_
  intro sound
  split
  · exact honest_pure _
  · exact honest_raise _

theorem honest_createSnapshot : Honest createSnapshot := by
  unfold createSnapshot
  refine honest_bind (honest_observe _) fun timestamp => honest_handle ?_ fun error => ?_
  · refine honest_bind (honest_eachRole fun role => honest_copyRole timestamp role) fun _ => ?_
    refine honest_bind (honest_eachRole fun role => honest_update _ _ _) fun _ => ?_
    unfold publishGeneration
    exact honest_bind (honest_bind (honest_update _ _ _) fun _ =>
      honest_bind (honest_update _ _ _) fun _ => honest_update _ _ _) fun _ => honest_pure _
  · unfold discard
    refine honest_bind ?_ fun _ => honest_raise _
    refine honest_bind (honest_eachRole fun role => honest_update _ _ _) fun _ => ?_
    refine honest_bind (honest_eachRole fun role => honest_update _ _ _) fun _ => ?_
    exact honest_update _ _ _

end Pallium.Snapshot
