import Pallium.Snapshot.Shelf

/-!
# The snapshot worker

A cycle of the worker asks whether the databases were written since the newest manifest, and
if so publishes a generation and prunes.  The question compares the times of the live files
with that of the manifest, although the copies were taken earlier.  The copies themselves are
exact: one contains every write of its database if and only if it is younger than the last of
them.  So a write is missed when it falls between the copy of its database and the manifest,
and no later write makes the next cycle look again.
-/

namespace Pallium.Snapshot

open Interrupted Program

namespace Files

/-- `max(snapshot_dir.glob("pallium-*.manifest.json"), default=None, key=lambda p: p.name)`. -/
def latest (files : Files) : Option Marker := files.markers.rows.argmax Marker.name

def liveTime (files : Files) (role : Role) : Option ℕ := (files.live role).map Stamped.time

/-- The time of the newest manifest, from which on writes count. -/
def publishedTime (files : Files) : ℕ :=
  (files.latest.map fun marker => marker.manifest.time).getD 0

/-- The live files show a write after the newest manifest. -/
def Dirty (files : Files) : Prop :=
  files.publishedTime < max (files.lastWrite .main) (files.lastWrite .relay)

instance (files : Files) : Decidable files.Dirty := inferInstanceAs (Decidable (_ < _))

end Files

section Source

/-- `path.stat().st_mtime`, where `path.exists()`. -/
def statIfThere (existsSite statSite : Site) (time : Files → Option ℕ) : Action (Option ℕ) := do
  let there ← inspect existsSite .osError fun files => some (time files).isSome
  if there then do
    let found ← inspect statSite .osError time
    pure (some found)
  else pure none

/-- `latest.stat().st_mtime if latest else 0`. -/
def statLatest : Option Marker → Action ℕ
  | none => pure 0
  | some marker => inspect .statManifest .osError fun files =>
    (files.markers.get marker.name).map fun found => found.manifest.time

/-- `_is_dirty` of the pair. -/
def isDirty : Action Bool := do
  let main ← statIfThere (.existsLive .main) (.statLive .main) fun files => files.liveTime .main
  let relay ← statIfThere (.existsLive .relay) (.statLive .relay) fun files =>
    files.liveTime .relay
  let mainWal ← statIfThere (.existsWal .main) (.statWal .main) fun files => files.wal .main
  let relayWal ← statIfThere (.existsWal .relay) (.statWal .relay) fun files => files.wal .relay
  let liveMtime := max (max (max (main.getD 0) (relay.getD 0)) (mainWal.getD 0)) (relayWal.getD 0)
  let latest ← inspect .globLatest .osError fun files => some files.latest
  let published ← statLatest latest
  pure (decide (published < liveMtime))

/-- One round of `run_snapshot`, which logs whatever is raised. -/
def cycle (keep : ℕ) : Action Unit :=
  handle
    (do
      let dirty ← isDirty
      if dirty then do
        let _ ← createSnapshot
        pruneOldSnapshots keep
      else pure ())
    fun _ => pure ()

end Source

section Following

variable {database : Stamped}

/-- Both databases are there, and no time on them is still to come. -/
def Files.Watched (files : Files) : Prop :=
  ∀ role, ∃ database, files.live role = some database ∧ 0 < database.time ∧
    files.lastWrite role ≤ files.clock

/-- A copy of a database: it holds the first of its writes, and all of them exactly if it is
younger than the last. -/
def Faithful (role : Role) (file : Stamped) (files : Files) : Prop :=
  file.time ≤ files.clock ∧ ∃ database, files.live role = some database ∧
    file.image.log <+: database.image.log ∧
    (file.image.log = database.image.log ↔ files.lastWrite role < file.time)

variable {files : Files}

theorem lastWrite_of_live {role : Role} (hlive : files.live role = some database) :
    files.lastWrite role = max database.time ((files.wal role).getD 0) := by
  rw [Files.lastWrite, hlive, Option.map_some, Option.getD_some]

theorem live_write {event : Event} (hlive : files.live event.role = some database) (role : Role) :
    (files.write event).live role =
      if role = event.role then some
        ⟨database.image.commit event.item,
          if event.toWal then database.time else files.clock + 1⟩
      else files.live role := by
  rw [Files.write, hlive]
  exact Function.update_apply _ _ _ _

theorem lastWrite_write {event : Event} (hlive : files.live event.role = some database)
    (hpast : files.lastWrite event.role ≤ files.clock) (role : Role) :
    (files.write event).lastWrite role =
      if role = event.role then files.clock + 1 else files.lastWrite role := by
  rw [lastWrite_of_live hlive] at hpast
  have hdatabase : database.time ≤ files.clock := (le_max_left _ _).trans hpast
  have hwal : (files.wal event.role).getD 0 ≤ files.clock := (le_max_right _ _).trans hpast
  rw [Files.lastWrite, live_write hlive]
  by_cases hrole : role = event.role
  · subst hrole
    rw [if_pos rfl, if_pos rfl]
    cases hto : event.toWal with
    | true =>
      simp [Files.write, hlive, hto]
      omega
    | false =>
      simp [Files.write, hlive, hto]
      omega
  · rw [if_neg hrole, if_neg hrole, Files.lastWrite]
    cases hto : event.toWal with
    | true => simp [Files.write, hlive, hto, Function.update_of_ne hrole]
    | false => simp [Files.write, hlive, hto]

theorem steady_watched : Steady Files.Watched where
  write event files hwatched role := by
    obtain ⟨written, hwritten, hpositive, hpast⟩ := hwatched event.role
    obtain ⟨database, hlive, hdatabase, hrole⟩ := hwatched role
    rw [live_write hwritten, lastWrite_write hwritten hpast, Files.clock_write]
    by_cases hsame : role = event.role
    · rw [if_pos hsame, if_pos hsame]
      refine ⟨_, rfl, ?_, le_rfl⟩
      split
      · exact hpositive
      · exact Nat.succ_pos _
    · rw [if_neg hsame, if_neg hsame]
      exact ⟨database, hlive, hdatabase, hrole.trans (Nat.le_succ _)⟩
  tick files hwatched role := by
    obtain ⟨database, hlive, hdatabase, hpast⟩ := hwatched role
    exact ⟨database, hlive, hdatabase, hpast.trans (Nat.le_succ _)⟩
  connect role files hwatched := by
    rcases connect_cases role files with ⟨-, hsame⟩ | ⟨hnone, -⟩
    · rw [hsame]
      exact hwatched
    · obtain ⟨database, hlive, -⟩ := hwatched role
      exact nomatch hnone.symm.trans hlive
  frame files after hclock hlive hwal hwatched role := by
    have hlast : after.lastWrite role = files.lastWrite role := by
      rw [Files.lastWrite, hlive, hwal, Files.lastWrite]
    rw [hlive, hlast, hclock]
    exact hwatched role

theorem steady_faithful (role : Role) (file : Stamped) :
    Steady fun files => files.Watched ∧ Faithful role file files where
  write event files hfiles := by
    obtain ⟨hwatched, hpast, database, hlive, hprefixed, hall⟩ := hfiles
    refine ⟨steady_watched.write event files hwatched, ?_⟩
    obtain ⟨written, hwritten, -, hlast⟩ := hwatched event.role
    refine ⟨hpast.trans (by simp), ?_⟩
    rw [live_write hwritten, lastWrite_write hwritten hlast]
    by_cases hsame : role = event.role
    · subst hsame
      obtain rfl : database = written := Option.eq_some_unique hlive hwritten
      rw [if_pos rfl, if_pos rfl]
      refine ⟨_, rfl, hprefixed.trans (List.prefix_append _ _), ?_⟩
      constructor
      · intro hequal
        have hlength := hprefixed.length_le
        rw [hequal, Image.log_commit, List.length_append, List.length_singleton] at hlength
        omega
      · intro hlater
        omega
    · rw [if_neg hsame, if_neg hsame]
      exact ⟨database, hlive, hprefixed, hall⟩
  tick files hfiles := by
    obtain ⟨hwatched, hpast, hcopy⟩ := hfiles
    exact ⟨steady_watched.tick files hwatched, hpast.trans (Nat.le_succ _), hcopy⟩
  connect other files hfiles := by
    rcases connect_cases other files with ⟨-, hsame⟩ | ⟨hnone, -⟩
    · rw [hsame]
      exact hfiles
    · obtain ⟨database, hlive, -⟩ := hfiles.1 other
      exact nomatch hnone.symm.trans hlive
  frame files after hclock hlive hwal hfiles := by
    obtain ⟨hwatched, hpast, hcopy⟩ := hfiles
    have hlast : after.lastWrite role = files.lastWrite role := by
      rw [Files.lastWrite, hlive, hwal, Files.lastWrite]
    refine ⟨steady_watched.frame files after hclock hlive hwal hwatched, ?_⟩
    rw [Faithful, hclock, hlive, hlast]
    exact ⟨hpast, hcopy⟩

theorem regime_faithful : Regime Files.Watched Faithful where
  live := steady_watched
  copies := steady_faithful
  backup role database files hwatched hlive := by
    obtain ⟨found, hfound, -, hpast⟩ := hwatched role
    obtain rfl : database = found := Option.eq_some_unique hlive hfound
    refine ⟨le_rfl, database, hlive, List.prefix_rfl, ?_⟩
    exact iff_of_true rfl (Nat.lt_succ_of_le hpast)

end Following

section Cycle

variable {schedule : Schedule} {start files : Files}

variable {α : Type}

/-- What the cycles and the writers keep true. -/
abbrev Kept (files : Files) : Prop := Shelved Files.Watched Faithful files

/-- Nothing but time and the writers have changed the files. -/
def Watching (schedule : Schedule) (start now : Files) : Prop :=
  Thinned schedule (fun _ => True) start now ∧ now.markers = start.markers

theorem Watching.reached (hwatching : Watching schedule start files) (site : Site) :
    Watching schedule start (reach (schedule site) files) :=
  ⟨hwatching.1.reached site, (markers_reach _ _).trans hwatching.2⟩

/-- How a reading ends: alone and without faults, with the value at the start. -/
def Reads {α : Type} (schedule : Schedule) (start : Files) (value : α) (result : Except Raised α)
    (now : Files) : Prop :=
  Watching schedule start now ∧ (Quiet schedule → Faultless schedule → result = .ok value)

theorem Reads.faulty {site : Site} {value : α} {result : Except Raised α}
    (hwatching : Watching schedule start files) (hfault : (schedule site).fault = .fails) :
    Reads schedule start value result files :=
  ⟨hwatching, fun _ hfaultless => absurd hfaultless (not_faultless hfault)⟩

/-- Readings follow each other. -/
theorem Reads.bind {β : Type} (seen : α) {first : Action α} {next : α → Action β} {value : β}
    (hfirst : Ends schedule first files (Reads schedule start seen)
      fun _ => Watching schedule start) (hnext : ∀ found now, Watching schedule start now →
      (Quiet schedule → Faultless schedule → found = seen) →
      Ends schedule (next found) now (Reads schedule start value)
        fun _ => Watching schedule start) :
    Ends schedule (first >>= next) files (Reads schedule start value)
      fun _ => Watching schedule start := by
  refine Ends.bind _ hfirst (fun found now hnow => hnext found now hnow.1 ?_) ?_
  · exact fun hquiet hfaultless => Except.ok.inj (hnow.2 hquiet hfaultless)
  · rintro error now ⟨hnow, herror⟩
    exact ⟨hnow, fun hquiet hfaultless => nomatch herror hquiet hfaultless⟩

theorem inspect_reads {site : Site} {view : Files → Option α} {value : α}
    (hwatching : Watching schedule start files)
    (hview : Quiet schedule → view (reach (schedule site) files) = some value) :
    Ends schedule (inspect site .osError view) files (Reads schedule start value)
      fun _ => Watching schedule start := by
  have hreached := hwatching.reached site
  refine Ends.inspect (fun _ found hfound => ⟨hreached, fun hquiet _ => ?_⟩)
    (fun _ hnone => ⟨hreached, fun hquiet _ => ?_⟩) (Reads.faulty hreached) fun _ => hreached
  · rw [hview hquiet] at hfound
    rw [Option.some.inj hfound]
  · exact nomatch hnone.symm.trans (hview hquiet)

theorem statIfThere_reads {existsSite statSite : Site} {time : Files → Option ℕ}
    (htime : ∀ now : Files, now.live = start.live → now.wal = start.wal → time now = time start)
    (hwatching : Watching schedule start files) :
    Ends schedule (statIfThere existsSite statSite time) files
      (Reads schedule start (time start)) fun _ => Watching schedule start := by
  have hseen : ∀ (site : Site) {now : Files}, Watching schedule start now → Quiet schedule →
      time (reach (schedule site) now) = time start := by
    intro site now hnow hquiet
    obtain ⟨hlive, hwal⟩ := (hnow.reached site).1.quiet hquiet
    exact htime _ hlive hwal
  unfold statIfThere
  refine Reads.bind _ (inspect_reads hwatching fun hquiet =>
    congrArg (fun found => some found.isSome) (hseen existsSite hwatching hquiet)) ?_
  intro there now hnow hthere
  by_cases hcase : there = true
  · rw [if_pos hcase]
    -- a file that vanished in between is an error, which needs another party
    refine Ends.bind (fun result now => Watching schedule start now ∧
        (Quiet schedule → Faultless schedule → ∃ found, result = .ok found ∧
          time start = some found))
      (Ends.inspect (fun _ found hfound => ?_) (fun _ hnone => ?_) (fun hfault => ?_) fun _ => ?_)
      ?_ ?_
    · exact ⟨hnow.reached _, fun hquiet _ => ⟨found, rfl, (hseen _ hnow hquiet) ▸ hfound⟩⟩
    · refine ⟨hnow.reached _, fun hquiet hfaultless => ?_⟩
      have hsome := (hthere hquiet hfaultless).symm.trans hcase
      rw [hseen _ hnow hquiet] at hnone
      rw [hnone] at hsome
      exact nomatch hsome
    · exact ⟨hnow.reached _, fun _ hfaultless => absurd hfaultless (not_faultless hfault)⟩
    · exact hnow.reached _
    · rintro found after ⟨hafter, hfound⟩
      refine Ends.pure ⟨hafter, fun hquiet hfaultless => ?_⟩
      obtain ⟨_, hok, htime⟩ := hfound hquiet hfaultless
      cases hok
      rw [htime]
    · rintro error after ⟨hafter, hfound⟩
      refine ⟨hafter, fun hquiet hfaultless => ?_⟩
      obtain ⟨_, hok, -⟩ := hfound hquiet hfaultless
      exact nomatch hok
  · rw [if_neg hcase]
    refine Ends.pure ⟨hnow, fun hquiet hfaultless => ?_⟩
    have hnone := (hthere hquiet hfaultless).symm.trans (Bool.eq_false_iff.mpr hcase)
    rw [Option.isSome_eq_false_iff, Option.isNone_iff_eq_none] at hnone
    rw [hnone]

theorem latest_eq_some {marker : Marker} : files.latest = some marker ↔ files.Newest marker := by
  constructor
  · intro hlatest
    exact ⟨List.argmax_mem hlatest, fun other hother => List.le_of_mem_argmax hother hlatest⟩
  · intro hnewest
    cases hlatest : files.latest with
    | none =>
      rw [Files.latest, List.argmax_eq_none] at hlatest
      exact absurd hnewest.1 (hlatest ▸ List.not_mem_nil)
    | some found =>
      have hfound : files.Newest found :=
        ⟨List.argmax_mem hlatest, fun other hother => List.le_of_mem_argmax hother hlatest⟩
      rw [hfound.eq hnewest]

theorem statLatest_reads {latest : Option Marker}
    (hlatest : Quiet schedule → Faultless schedule → latest = start.latest)
    (hwatching : Watching schedule start files) :
    Ends schedule (statLatest latest) files (Reads schedule start start.publishedTime)
      fun _ => Watching schedule start := by
  cases latest with
  | none =>
    refine Ends.pure ⟨hwatching, fun hquiet hfaultless => ?_⟩
    rw [Files.publishedTime, ← hlatest hquiet hfaultless]
    rfl
  | some marker =>
    have hreached := hwatching.reached .statManifest
    have hfound : Quiet schedule → Faultless schedule →
        ((reach (schedule .statManifest) files).markers.get marker.name).map
          (fun found => found.manifest.time) = some start.publishedTime := by
      intro hquiet hfaultless
      have hsome := (hlatest hquiet hfaultless).symm
      rw [hreached.2, Files.publishedTime, hsome,
        show start.markers.get marker.name = some marker from
          Table.get_of_mem (latest_eq_some.mp hsome).1]
      rfl
    refine Ends.inspect (fun _ found hview => ⟨hreached, fun hquiet hfaultless => ?_⟩)
      (fun _ hnone => ⟨hreached, fun hquiet hfaultless => ?_⟩) (Reads.faulty hreached)
      fun _ => hreached
    · rw [hfound hquiet hfaultless] at hview
      rw [Option.some.inj hview]
    · exact nomatch hnone.symm.trans (hfound hquiet hfaultless)

theorem isDirty_ends (hwatching : Watching schedule start files) :
    Ends schedule isDirty files (Reads schedule start (decide start.Dirty))
      fun _ => Watching schedule start := by
  have hliveTime : ∀ (role : Role) (now : Files), now.live = start.live → now.wal = start.wal →
      now.liveTime role = start.liveTime role := fun role now hlive _ => by
    rw [Files.liveTime, hlive, Files.liveTime]
  have hwalTime : ∀ (role : Role) (now : Files), now.live = start.live → now.wal = start.wal →
      now.wal role = start.wal role := fun role now _ hwal => congrFun hwal role
  unfold isDirty
  refine Reads.bind _ (statIfThere_reads (hliveTime .main) hwatching) ?_
  intro main now hnow hmain
  refine Reads.bind _ (statIfThere_reads (hliveTime .relay) hnow) ?_
  intro relay now hnow hrelay
  refine Reads.bind _ (statIfThere_reads (hwalTime .main) hnow) ?_
  intro mainWal now hnow hmainWal
  refine Reads.bind _ (statIfThere_reads (hwalTime .relay) hnow) ?_
  intro relayWal now hnow hrelayWal
  refine Reads.bind start.latest (inspect_reads hnow fun _ => ?_) ?_
  · rw [Files.latest, markers_reach, hnow.2, Files.latest]
  intro latest now hnow hlatest
  refine Reads.bind _ (statLatest_reads hlatest hnow) ?_
  intro published now hnow hpublished
  refine Ends.pure ⟨hnow, fun hquiet hfaultless => ?_⟩
  rw [hmain hquiet hfaultless, hrelay hquiet hfaultless, hmainWal hquiet hfaultless,
    hrelayWal hquiet hfaultless, hpublished hquiet hfaultless]
  have hmax : ∀ a b c d : ℕ, max (max (max a b) c) d = max (max a c) (max b d) := by
    intro a b c d
    rw [max_assoc, max_assoc, max_left_comm b c d, ← max_assoc]
  rw [hmax]
  rfl

theorem cycle_kept (keep : ℕ) (hkept : Kept start) :
    Ends schedule (cycle keep) start (fun _ => Kept) fun _ => Kept := by
  unfold cycle
  refine Ends.handle (fun _ => Kept) ?_ (fun _ _ hvalue => hvalue)
    fun error now hnow => Ends.pure hnow
  have hwatching : Watching schedule start start := ⟨Thinned.refl _ _ _, rfl⟩
  refine Ends.bind (fun _ => Kept) ((isDirty_ends hwatching).mono
    (fun _ now hnow => hkept.thinned regime_faithful hnow.1.1)
      fun _ now hnow => hkept.thinned regime_faithful hnow.1) ?_ fun _ _ herror => herror
  intro dirty seen hseen
  split
  · refine Ends.bind (fun _ => Kept) ((createSnapshot_ends regime_faithful hseen.holds
      hseen.sound).mono ?_ fun _ now hnow => ?_) (fun name now hnow => ?_)
      fun _ _ herror => herror
    · rintro (error | name) now hnow
      · exact hnow.1.shelved hseen.named fun marker hmarker => (hseen.past marker hmarker).le
      · obtain ⟨hname, time, hunderway⟩ := hnow
        exact hseen.published hname hunderway
    · exact hnow.shelved hseen.named fun marker hmarker => (hseen.past marker hmarker).le
    · refine (pruneOldSnapshots_ends hnow.readable keep).mono ?_
        fun _ after hafter => hnow.thinned regime_faithful hafter
      rintro (error | value) after hafter
      · exact hnow.thinned regime_faithful hafter.1
      · exact hnow.thinned regime_faithful hafter.1
  · exact Ends.pure hseen

/-- The newest published pair holds every committed write of both databases. -/
def Files.Contains (files : Files) : Prop :=
  ∃ marker, files.Newest marker ∧ ∀ role, ∃ generation file database,
    marker.manifest.generation = some generation ∧
    files.copyOf generation role = some file ∧ files.live role = some database ∧
    file.image.log = database.image.log

/-- The last write to some database is not older than its copy in the newest generation, but no
write is younger than the manifest. -/
def Files.Missed (files : Files) : Prop :=
  ∃ marker, files.Newest marker ∧ (∀ role, files.lastWrite role ≤ marker.manifest.time) ∧
    ∃ role, ∀ file, files.copyOf marker.name role = some file → file.time ≤ files.lastWrite role

theorem contains_iff (hkept : Kept files) {marker : Marker} (hnewest : files.Newest marker) :
    files.Contains ↔ ∀ role, ∃ file, files.copyOf marker.name role = some file ∧
      files.lastWrite role < file.time := by
  have hnamed := hkept.named marker hnewest.1
  constructor
  · rintro ⟨found, hfound, hpair⟩ role
    obtain rfl := hfound.eq hnewest
    obtain ⟨generation, file, database, hgeneration, hcopy, hlive, hlog⟩ := hpair role
    obtain rfl : generation = found.name := Option.eq_some_unique hgeneration hnamed
    obtain ⟨-, other, hother, -, hall⟩ := hkept.sound _ role file hcopy
    obtain rfl : database = other := Option.eq_some_unique hlive hother
    exact ⟨file, hcopy, hall.mp hlog⟩
  · intro hpair
    refine ⟨marker, hnewest, fun role => ?_⟩
    obtain ⟨file, hcopy, hlast⟩ := hpair role
    obtain ⟨-, database, hlive, -, hall⟩ := hkept.sound _ role file hcopy
    exact ⟨marker.name, file, database, hnamed, hcopy, hlive, hall.mpr hlast⟩

/-- Databases that were not written since the newest manifest have one. -/
theorem exists_newest (hkept : Kept files) (hclean : ¬ files.Dirty) :
    ∃ marker, files.Newest marker ∧ ∀ role, files.lastWrite role ≤ marker.manifest.time := by
  cases hlatest : files.latest with
  | none =>
    obtain ⟨database, hlive, hpositive, -⟩ := hkept.holds .main
    have hmain : database.time ≤ files.lastWrite .main := by
      rw [lastWrite_of_live hlive]
      exact le_max_left _ _
    refine absurd ?_ hclean
    rw [Files.Dirty, Files.publishedTime, hlatest]
    exact hpositive.trans_le (hmain.trans (le_max_left _ _))
  | some marker =>
    refine ⟨marker, latest_eq_some.mp hlatest, ?_⟩
    rw [Files.Dirty, Files.publishedTime, hlatest, not_lt, max_le_iff] at hclean
    exact Role.forall.mpr hclean

theorem lastWrite_congr {after : Files} (hlive : after.live = files.live)
    (hwal : after.wal = files.wal) (role : Role) :
    after.lastWrite role = files.lastWrite role := by
  rw [Files.lastWrite, hlive, hwal, Files.lastWrite]

theorem contains_watching (hkept : Kept start) (hclean : ¬ start.Dirty)
    (hquiet : Quiet schedule) (hwatching : Watching schedule start files) :
    files.Contains ↔ ¬ start.Missed := by
  obtain ⟨marker, hnewest, hlast⟩ := exists_newest hkept hclean
  obtain ⟨hlive, hwal⟩ := hwatching.1.quiet hquiet
  have hnow : files.Newest marker := by
    rw [Files.Newest, hwatching.2]
    exact hnewest
  have hcopies := (hwatching.1.kept marker.name trivial).2
  rw [contains_iff (hkept.thinned regime_faithful hwatching.1) hnow]
  constructor
  · rintro hpair ⟨found, hfound, -, role, hmissed⟩
    obtain rfl := hfound.eq hnewest
    obtain ⟨file, hcopy, hyounger⟩ := hpair role
    rw [hcopies role] at hcopy
    rw [lastWrite_congr hlive hwal] at hyounger
    exact absurd (hmissed file hcopy) (not_le_of_gt hyounger)
  · intro hmissed role
    by_contra hnone
    refine hmissed ⟨marker, hnewest, hlast, role, fun file hcopy => ?_⟩
    by_contra holder
    refine hnone ⟨file, (hcopies role).trans hcopy, ?_⟩
    rw [lastWrite_congr hlive hwal]
    exact not_le.mp holder

/-- Alone, a generation that has just been published and is not pruned holds every write. -/
theorem contains_published {created : Files} {name time keep : ℕ} (hkept : Kept start)
    (hquiet : Quiet schedule) (hname : name = start.clock)
    (hunderway : Underway Files.Watched Faithful schedule
      (start.withMarker ⟨name, ⟨some name, time⟩⟩) name [] [.relay, .main] created)
    (hthinned : Thinned schedule (created.Spared keep) created files)
    (hempty : keep = 0 → files.markers.rows = []) :
    files.Contains ↔ keep ≠ 0 := by
  subst hname
  have hcreated := hkept.published rfl hunderway
  have hnewest : created.Newest ⟨start.clock, ⟨some start.clock, time⟩⟩ := by
    rw [Files.Newest, hunderway.markers]
    exact newest_withMarker hkept
  constructor
  · rintro ⟨marker, hmarker, -⟩ hkeep
    exact List.not_mem_nil (hempty hkeep ▸ hmarker.1)
  · intro hkeep
    obtain ⟨hmarker, hcopies⟩ := hthinned.kept start.clock ⟨hkeep, _, hnewest, rfl⟩
    have hget : created.markers.get start.clock = some ⟨start.clock, ⟨some start.clock, time⟩⟩ :=
      Table.get_of_mem hnewest.1
    have hstays : files.Newest ⟨start.clock, ⟨some start.clock, time⟩⟩ := by
      refine ⟨Table.mem_of_get (hmarker.trans hget), fun other hother => ?_⟩
      exact hnewest.2 other
        (Table.mem_of_get (hthinned.markers _ _ (Table.get_of_mem hother)))
    rw [contains_iff (hcreated.thinned regime_faithful hthinned) hstays]
    intro role
    obtain ⟨file, hcopy, -, hyounger⟩ := hunderway.published role (by cases role <;> decide)
    refine ⟨file, (hcopies role).trans hcopy, ?_⟩
    have hlive : ∀ role, start.live role ≠ none := fun role => by
      obtain ⟨database, hlive, -⟩ := hkept.holds role
      exact hlive ▸ Option.some_ne_none database
    obtain ⟨hsame, hwal⟩ := hunderway.quiet hquiet hlive
    obtain ⟨hsame', hwal'⟩ := hthinned.quiet hquiet
    obtain ⟨-, -, -, hlast⟩ := hkept.holds role
    calc files.lastWrite role = created.lastWrite role := lastWrite_congr hsame' hwal' role
      _ = start.lastWrite role := lastWrite_congr hsame hwal role
      _ ≤ start.clock := hlast
      _ < file.time := hyounger

theorem honest_statIfThere (existsSite statSite : Site) (time : Files → Option ℕ) :
    Honest (statIfThere existsSite statSite time) := by
  unfold statIfThere
  refine honest_bind (honest_inspect _ _ _) fun there => ?_
  split
  · exact honest_bind (honest_inspect _ _ _) fun _ => honest_pure _
  · exact honest_pure _

theorem honest_isDirty : Honest isDirty := by
  unfold isDirty
  refine honest_bind (honest_statIfThere _ _ _) fun _ => honest_bind (honest_statIfThere _ _ _)
    fun _ => honest_bind (honest_statIfThere _ _ _) fun _ =>
    honest_bind (honest_statIfThere _ _ _) fun _ => ?_
  refine honest_bind (honest_inspect _ _ _) fun latest => honest_bind ?_ fun _ => honest_pure _
  cases latest with
  | none => exact honest_pure _
  | some marker => exact honest_inspect _ _ _

theorem honest_cycle (keep : ℕ) : Honest (cycle keep) := by
  unfold cycle
  refine honest_handle (honest_bind honest_isDirty fun dirty => ?_) fun _ => honest_pure _
  split
  · exact honest_bind honest_createSnapshot fun _ => honest_pruneOldSnapshots keep
  · exact honest_pure _

theorem cycle_calm (keep : ℕ) (hkept : Kept start) :
    ∃ after, cycle keep calm start = .returned (.ok ()) after ∧
      (after.Contains ↔ (start.Dirty → keep ≠ 0) ∧ ¬ start.Missed) := by
  have hends : Ends calm (cycle keep) start (fun result now => result = .ok () ∧
      (now.Contains ↔ (start.Dirty → keep ≠ 0) ∧ ¬ start.Missed)) fun _ _ => True := by
    unfold cycle
    refine Ends.handle (fun result now => result = .ok () ∧
      (now.Contains ↔ (start.Dirty → keep ≠ 0) ∧ ¬ start.Missed)) ?_
      (fun _ _ hvalue => hvalue) fun _ _ herror => nomatch herror.1
    have hwatching : Watching calm start start := ⟨Thinned.refl _ _ _, rfl⟩
    refine Ends.bind _ ((isDirty_ends hwatching).mono (fun _ _ hpost => hpost)
      fun _ _ _ => trivial) ?_ fun error now herror =>
        nomatch herror.2 quiet_calm faultless_calm
    rintro dirty seen ⟨hseen, hdirty⟩
    have hcase : dirty = decide start.Dirty := Except.ok.inj (hdirty quiet_calm faultless_calm)
    by_cases hstart : start.Dirty
    · rw [hcase, decide_eq_true hstart, if_pos rfl]
      have hkeptSeen := hkept.thinned regime_faithful hseen.1
      refine Ends.bind _ ((createSnapshot_ends regime_faithful hkeptSeen.holds
        hkeptSeen.sound).mono (fun _ _ hpost => hpost) fun _ _ _ => trivial) ?_
        fun error now herror => absurd faultless_calm herror.2
      rintro name created ⟨hname, time, hunderway⟩
      have hcreated := hkeptSeen.published hname hunderway
      refine ((pruneOldSnapshots_ends hcreated.readable keep).mono ?_ fun _ _ _ => trivial)
      rintro (error | value) now hnow
      · exact absurd faultless_calm hnow.2
      · refine ⟨rfl, ?_⟩
        rw [contains_published hkeptSeen quiet_calm hname hunderway hnow.1 hnow.2]
        have hmissed : ¬ start.Missed := by
          rintro ⟨marker, hnewest, hlast, -⟩
          rw [Files.Dirty, Files.publishedTime, latest_eq_some.mpr hnewest] at hstart
          exact absurd hstart (not_lt_of_ge (max_le (hlast .main) (hlast .relay)))
        exact ⟨fun hkeep => ⟨fun _ => hkeep, hmissed⟩, fun hkeep => hkeep.1 hstart⟩
    · rw [hcase, decide_eq_false hstart, if_neg Bool.false_ne_true]
      refine Ends.pure ⟨rfl, ?_⟩
      rw [contains_watching hkept hstart quiet_calm hseen]
      exact ⟨fun hmissed => ⟨fun hdirty => absurd hdirty hstart, hmissed⟩, And.right⟩
  obtain ⟨result, after, hreturned, rfl, hcontains⟩ :=
    hends.returns (honest_cycle keep) faultless_calm
  exact ⟨after, hreturned, hcontains⟩

end Cycle

section Runs

/-- Databases that are there, with an empty snapshot directory. -/
structure Fresh (files : Files) : Prop where
  watched : files.Watched
  markers : files.markers.rows = []
  finals : files.finals.rows = []

/-- A write between two cycles, or a cycle with whatever happens during it. -/
inductive WorkerStep
  | write (event : Event)
  | cycle (keep : ℕ) (schedule : Schedule)

def WorkerStep.apply (files : Files) : WorkerStep → Files
  | write event => files.write event
  | cycle keep schedule => (Snapshot.cycle keep schedule files).state

/-- A history of the worker and the writers. -/
def runWorker (start : Files) (steps : List WorkerStep) : Files :=
  steps.foldl WorkerStep.apply start

theorem Fresh.kept {files : Files} (hfresh : Fresh files) : Kept files where
  holds := hfresh.watched
  named marker hmarker := by
    rw [hfresh.markers] at hmarker
    exact absurd hmarker List.not_mem_nil
  past marker hmarker := by
    rw [hfresh.markers] at hmarker
    exact absurd hmarker List.not_mem_nil
  sound generation role file hcopy := by
    obtain ⟨copy, hget, -⟩ := Option.map_eq_some_iff.mp hcopy
    have hmem := Table.mem_of_get hget
    rw [hfresh.finals] at hmem
    exact absurd hmem List.not_mem_nil

theorem kept_step {files : Files} (hkept : Kept files) (step : WorkerStep) :
    Kept (step.apply files) := by
  cases step with
  | write event =>
    refine ⟨steady_watched.write event files hkept.holds, ?_, ?_, ?_⟩
    · exact fun marker hmarker => hkept.named marker (by simpa [WorkerStep.apply] using hmarker)
    · intro marker hmarker
      rw [WorkerStep.apply, Files.markers_write] at hmarker
      rw [WorkerStep.apply, Files.clock_write]
      exact (hkept.past marker hmarker).trans (Nat.lt_succ_self _)
    · intro generation role file hcopy
      rw [WorkerStep.apply, Files.copyOf, Files.finals_write] at hcopy
      exact ((steady_faithful role file).write event files
        ⟨hkept.holds, hkept.sound generation role file hcopy⟩).2
  | cycle keep schedule => exact (cycle_kept keep hkept).holds

theorem runWorker_kept {start : Files} (hkept : Kept start) (steps : List WorkerStep) :
    Kept (runWorker start steps) := by
  induction steps generalizing start with
  | nil => exact hkept
  | cons step rest ih => exact ih (kept_step hkept step)

/-- After any history, one more cycle that nobody disturbs leaves every committed write in the
newest pair if and only if no write was missed and the new generation is not pruned at once. -/
theorem contains_iff_not_missed (start : Files) (hfresh : Fresh start) (steps : List WorkerStep)
    (keep : ℕ) :
    (cycle keep calm (runWorker start steps)).state.Contains ↔
      ((runWorker start steps).Dirty → keep ≠ 0) ∧ ¬ (runWorker start steps).Missed := by
  obtain ⟨after, hreturned, hcontains⟩ := cycle_calm keep (runWorker_kept hfresh.kept steps)
  rw [hreturned]
  exact hcontains

theorem fresh_newPair : Fresh newPair where
  watched role := ⟨⟨.whole [], 1⟩, rfl, by decide, by decide +revert⟩
  markers := rfl
  finals := rfl

/-- One write, which is never seen to be missing. -/
theorem contains_iff_not_missed_newPair :
    (cycle 5 calm (runWorker newPair [.write ⟨.main, 7, false⟩])).state.Contains ↔
      ((runWorker newPair [.write ⟨.main, 7, false⟩]).Dirty → 5 ≠ 0) ∧
        ¬ (runWorker newPair [.write ⟨.main, 7, false⟩]).Missed :=
  contains_iff_not_missed newPair fresh_newPair [.write ⟨.main, 7, false⟩] 5

/-- A write to the main database after its copy and before the manifest. -/
def lateWrite : Schedule := fun site =>
  ⟨if site = .connect .relay then [⟨.main, 7, false⟩] else [], .done⟩

/-- The write is in no snapshot, and the next cycle does not look for it. -/
theorem lateWrite_not_contained :
    Fresh newPair ∧ ¬ (cycle 5 calm (runWorker newPair [.cycle 5 lateWrite])).state.Contains := by
  refine ⟨fresh_newPair, ?_⟩
  obtain ⟨after, hreturned, hcontains⟩ :=
    cycle_calm 5 (runWorker_kept fresh_newPair.kept [.cycle 5 lateWrite])
  rw [hreturned]
  refine fun hafter => (hcontains.mp hafter).2 ?_
  refine ⟨⟨8, ⟨some 8, 22⟩⟩, by decide +kernel, by decide +kernel, .main, ?_⟩
  have hcopy : (runWorker newPair [.cycle 5 lateWrite]).copyOf 8 .main =
      some ⟨.whole [], 12⟩ := by decide +kernel
  have hlast : (runWorker newPair [.cycle 5 lateWrite]).lastWrite .main = 14 := by
    decide +kernel
  intro file hfile
  obtain rfl : ⟨.whole [], 12⟩ = file := Option.some.inj (hcopy.symm.trans hfile)
  exact hlast ▸ (by decide)

end Runs

end Pallium.Snapshot
