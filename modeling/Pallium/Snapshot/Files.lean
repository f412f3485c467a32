import Pallium.Core.Interrupted
import Pallium.Core.Table

/-!
# The database pair and its snapshots

The live databases are two files with their write-ahead logs and shared-memory files; the
snapshot directory holds generations, each of them a pair of copies and a manifest that
publishes it.  A generation is named by the time at which its creation began.  The names are
of fixed width, so that they sort as the times do, and are kept as numbers.  Writers of the
databases are not part of the snapshot code: they commit at any time between its operations.
-/

namespace Pallium.Snapshot

open Interrupted

inductive Role
  | main
  | relay
deriving DecidableEq, Repr

def Role.name : Role → String
  | main => "main"
  | relay => "relay"

theorem Role.forall {motive : Role → Prop} : (∀ role, motive role) ↔ motive .main ∧ motive .relay :=
  ⟨fun h => ⟨h _, h _⟩, fun h role => by cases role <;> [exact h.1; exact h.2]⟩

instance (motive : Role → Prop) [DecidablePred motive] : Decidable (∀ role, motive role) :=
  decidable_of_iff _ Role.forall.symm

/-- What a database file holds: no page yet, or a database with the writes committed to it,
oldest first. -/
inductive Image
  | blank
  | whole (log : List ℕ)
deriving DecidableEq, Repr

namespace Image

def log : Image → List ℕ
  | blank => []
  | whole log => log

/-- `_validate_snapshot`: not of size zero and found sound. -/
def valid : Image → Bool
  | blank => false
  | whole _ => true

/-- One more committed write. -/
def commit (image : Image) (item : ℕ) : Image := .whole (image.log ++ [item])

/-- What the backup of a database leaves in its target; that of a file without a page is a
database without a write. -/
def backup (image : Image) : Image := .whole image.log

variable (image : Image)

@[simp]
theorem valid_backup : image.backup.valid = true := rfl

@[simp]
theorem log_commit (item : ℕ) : (image.commit item).log = image.log ++ [item] :=
  rfl

end Image

/-- A file with its modification time. -/
structure Stamped where
  image : Image
  time : ℕ
deriving DecidableEq, Repr

/-- `pallium-{generation}-{role}.db`. -/
structure Copy where
  generation : ℕ
  role : Role
  file : Stamped
deriving DecidableEq, Repr

instance : Keyed Copy (ℕ × Role) := ⟨fun copy => (copy.generation, copy.role)⟩

/-- A manifest: the generation it names, if it can be read, and its modification time. -/
structure Manifest where
  generation : Option ℕ
  time : ℕ
deriving DecidableEq, Repr

/-- `pallium-{name}.manifest.json`. -/
structure Marker where
  name : ℕ
  manifest : Manifest
deriving DecidableEq, Repr

instance : Keyed Marker ℕ := ⟨Marker.name⟩

/-- The live files and the snapshot directory. -/
structure Files where
  clock : ℕ
  /-- The database files; the image is what a reader sees, the write-ahead log included. -/
  live : Role → Option Stamped
  wal : Role → Option ℕ
  shm : Role → Bool
  /-- `{path}.restore.tmp`. -/
  staged : Role → Option Stamped
  /-- `pallium-{timestamp}-{role}.tmp`. -/
  tmp : ℕ → Role → Option Stamped
  finals : Table Copy
  /-- `pallium-{timestamp}.manifest.tmp`. -/
  manifestTmp : ℕ → Option Manifest
  markers : Table Marker

/-- A committed write, which stamps the database file or its write-ahead log. -/
structure Event where
  role : Role
  item : ℕ
  toWal : Bool
deriving DecidableEq, Repr

namespace Files

/-- Time passes. -/
def tick (files : Files) : Files := { files with clock := files.clock + 1 }

/-- A write is committed, if there is a database to write to. -/
def write (event : Event) (files : Files) : Files :=
  match files.live event.role with
  | none => files.tick
  | some database =>
    { files with
      clock := files.clock + 1
      live := Function.update files.live event.role (some
        { image := database.image.commit event.item
          time := if event.toWal then database.time else files.clock + 1 })
      wal := if event.toWal then
          Function.update files.wal event.role (some (files.clock + 1))
        else files.wal }

instance : Shared Event Files := ⟨write, tick⟩

@[simp]
theorem shared_tick (files : Files) : Shared.tick files = files.tick := rfl

/-- The published manifests, newest first. -/
def listManifests (files : Files) : List Marker :=
  files.markers.rows.insertionSort fun left right => right.name ≤ left.name

/-- The rank of a role among the file names of one generation. -/
def nameRank : Role → ℕ
  | .main => 0
  | .relay => 1

/-- `pallium-*.db`, by name, last first. -/
def listFiles (files : Files) : List Copy :=
  files.finals.rows.insertionSort fun left right =>
    right.generation < left.generation ∨
      right.generation = left.generation ∧ nameRank right.role ≤ nameRank left.role

def copyOf (files : Files) (generation : ℕ) (role : Role) : Option Stamped :=
  (files.finals.get (generation, role)).map Copy.file

def Newest (files : Files) (marker : Marker) : Prop :=
  marker ∈ files.markers.rows ∧ ∀ other ∈ files.markers.rows, other.name ≤ marker.name

instance (files : Files) (marker : Marker) : Decidable (files.Newest marker) :=
  inferInstanceAs (Decidable (_ ∧ _))

/-- The time of the last write to a database that its files show. -/
def lastWrite (files : Files) (role : Role) : ℕ :=
  max (((files.live role).map Stamped.time).getD 0) ((files.wal role).getD 0)

section Lemmas

variable {files : Files}

theorem mem_listManifests {marker : Marker} :
    marker ∈ files.listManifests ↔ marker ∈ files.markers.rows :=
  List.mem_insertionSort _

theorem Newest.eq {left right : Marker} (hleft : files.Newest left) (hright : files.Newest right) :
    left = right := by
  have hname : left.name = right.name :=
    le_antisymm (hright.2 left hleft.1) (hleft.2 right hright.1)
  have hgets : files.markers.get left.name = some left := Table.get_of_mem hleft.1
  have hget : files.markers.get right.name = some right := Table.get_of_mem hright.1
  rw [hname, hget] at hgets
  exact (Option.some.inj hgets).symm

theorem listManifests_cases :
    (files.markers.rows = [] ∧ files.listManifests = []) ∨
      ∃ marker older, files.listManifests = marker :: older ∧ files.Newest marker ∧
        ∀ other ∈ older, other ∈ files.markers.rows ∧ other.name < marker.name := by
  have hsorted := List.pairwise_insertionSort
    (fun left right : Marker => right.name ≤ left.name) files.markers.rows
  have hperm := List.perm_insertionSort
    (fun left right : Marker => right.name ≤ left.name) files.markers.rows
  have hnodup : (files.listManifests.map Marker.name).Nodup :=
    (hperm.map Marker.name).nodup_iff.mpr files.markers.nodup
  cases hlist : files.listManifests with
  | nil =>
    refine Or.inl ⟨?_, rfl⟩
    exact List.eq_nil_iff_forall_not_mem.mpr fun marker hmarker =>
      List.not_mem_nil (hlist ▸ mem_listManifests.mpr hmarker)
  | cons marker older =>
    refine Or.inr ⟨marker, older, rfl, ?_, ?_⟩
    · refine ⟨mem_listManifests.mp (hlist ▸ List.mem_cons_self), fun other hother => ?_⟩
      have hmem : other ∈ marker :: older := hlist ▸ mem_listManifests.mpr hother
      change files.listManifests.Pairwise _ at hsorted
      rw [hlist, List.pairwise_cons] at hsorted
      rcases List.mem_cons.mp hmem with rfl | htail
      · exact le_rfl
      · exact hsorted.1 other htail
    · intro other hother
      change files.listManifests.Pairwise _ at hsorted
      rw [hlist, List.pairwise_cons] at hsorted
      rw [hlist, List.map_cons, List.nodup_cons] at hnodup
      refine ⟨mem_listManifests.mp (hlist ▸ List.mem_cons_of_mem marker hother), ?_⟩
      refine lt_of_le_of_ne (hsorted.1 other hother) fun hname => hnodup.1 ?_
      exact hname ▸ List.mem_map_of_mem hother

@[simp]
theorem clock_tick : files.tick.clock = files.clock + 1 := rfl

variable (event : Event)

@[simp]
theorem clock_write : (files.write event).clock = files.clock + 1 := by
  unfold write
  split <;> rfl

@[simp]
theorem markers_write : (files.write event).markers = files.markers := by
  unfold write
  split <;> rfl

@[simp]
theorem finals_write : (files.write event).finals = files.finals := by
  unfold write
  split <;> rfl

@[simp]
theorem tmp_write : (files.write event).tmp = files.tmp := by
  unfold write
  split <;> rfl

@[simp]
theorem manifestTmp_write :
    (files.write event).manifestTmp = files.manifestTmp := by
  unfold write
  split <;> rfl

theorem live_write_eq_none (role : Role) :
    (files.write event).live role = none ↔ files.live role = none := by
  unfold write
  cases hlive : files.live event.role with
  | none => rfl
  | some database =>
    by_cases hrole : role = event.role
    · subst hrole
      simp [hlive]
    · simp [Function.update_of_ne hrole]

end Lemmas

end Files

variable {schedule : Schedule}

/-- The errors of the snapshot code. -/
inductive Raised
  | osError
  | sqliteError
  /-- A manifest that cannot be parsed or has no generation. -/
  | badManifest
  | runtimeError (message : String)
deriving DecidableEq, Repr

/-- The errors after which a restore goes on to the next manifest and pruning to the next
deletion. -/
def Raised.skipped : Raised → Bool
  | osError => true
  | badManifest => true
  | sqliteError => false
  | runtimeError _ => false

/-- The operations of one call. -/
inductive Site
  | connect (role : Role)
  | openTmp (role : Role)
  | backup (role : Role)
  | validateTmp (role : Role)
  | publish (role : Role)
  | openManifest
  | writeManifest
  | publishManifest
  | unlinkTmp (role : Role)
  | unlinkFinal (role : Role)
  | unlinkManifestTmp
  | globManifests
  | readManifest (name : ℕ)
  | unlinkCopy (name : ℕ) (role : Role)
  | unlinkManifest (name : ℕ)
  | globFiles
  | unlinkFile (generation : ℕ) (role : Role)
  | existsLive (role : Role)
  | statLive (role : Role)
  | existsWal (role : Role)
  | statWal (role : Role)
  | globLatest
  | statManifest
  | findLive (role : Role)
  | globMarkers
  | readMarker (name : ℕ)
  | validateCopy (name : ℕ) (role : Role)
  | makeParent (name : ℕ) (role : Role)
  | openStaged (name : ℕ) (role : Role)
  | stage (name : ℕ) (role : Role)
  | stampStaged (name : ℕ) (role : Role)
  | validateStaged (name : ℕ) (role : Role)
  | place (name : ℕ) (role : Role)
  | unlinkWal (name : ℕ) (role : Role)
  | unlinkShm (name : ℕ) (role : Role)
  | unlinkStaged (name : ℕ) (role : Role)
deriving DecidableEq, Repr

abbrev Action (α : Type) : Type := Program Event Site Files Raised α

/-- A schedule of one call. -/
abbrev Schedule : Type := Site → Turn Event

open Program

/-- `_validate_snapshot` of a file; an error of it counts as a refusal. -/
def validateSnapshot (site : Site) (file : Files → Option Stamped) : Action Bool :=
  handle
    (inspect site .osError fun files => some (((file files).map fun found =>
      found.image.valid).getD false))
    fun _ => pure false

theorem validateSnapshot_ends {site : Site} {file : Files → Option Stamped} {files : Files}
    {post : Except Raised Bool → Files → Prop} {stop : Site → Files → Prop}
    (hdone : (schedule site).fault = .done →
      post (.ok (((file (reach (schedule site) files)).map fun found =>
        found.image.valid).getD false)) (reach (schedule site) files))
    (hfails : (schedule site).fault = .fails →
      post (.ok false) (reach (schedule site) files))
    (hstops : (schedule site).fault = .stops → stop site (reach (schedule site) files)) :
    Ends schedule (validateSnapshot site file) files post stop := by
  let middle : Except Raised Bool → Files → Prop := fun result after =>
    match result with
    | .ok value => post (.ok value) after
    | .error _ => post (.ok false) after
  have hinspect : Ends schedule
      (inspect site Raised.osError fun found : Files => some (((file found).map fun copy =>
        copy.image.valid).getD false)) files middle stop :=
    Ends.inspect_some hdone hfails hstops
  exact Ends.handle middle hinspect (fun _ _ hvalue => hvalue) fun _ _ herror => Ends.pure herror

/-- A step for each role, in the order of the paths. -/
def eachRole (step : Role → Action Unit) : Action Unit := do
  step .main
  step .relay

theorem keeps_validateSnapshot {invariant : Files → Prop}
    (hreach : ∀ site files, invariant files → invariant (reach (schedule site) files)) (site : Site)
    (file : Files → Option Stamped) :
    Keeps schedule invariant (validateSnapshot site file) :=
  keeps_handle (keeps_inspect hreach _ _ _) fun _ => keeps_pure _

theorem keeps_eachRole {invariant : Files → Prop} {step : Role → Action Unit}
    (hstep : ∀ role, Keeps schedule invariant (step role)) :
    Keeps schedule invariant (eachRole step) :=
  keeps_bind (hstep .main) fun _ => hstep .relay

theorem honest_validateSnapshot (site : Site) (file : Files → Option Stamped) :
    Honest (validateSnapshot site file) :=
  honest_handle (honest_inspect _ _ _) fun _ => honest_pure _

theorem honest_eachRole {step : Role → Action Unit} (hstep : ∀ role, Honest (step role)) :
    Honest (eachRole step) :=
  honest_bind (hstep .main) fun _ => hstep .relay

end Pallium.Snapshot
