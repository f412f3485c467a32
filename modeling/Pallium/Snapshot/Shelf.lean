import Pallium.Snapshot.Prune

/-!
# The shelf of published generations

Between two calls every manifest names its own generation, all names lie in the past and every
copy is good.  Calls of `create_snapshot` and `prune_old_snapshots` keep this, whatever happens
to them, and a generation that a call has published is the newest.
-/

namespace Pallium.Snapshot

open Interrupted Program

variable {base : Files → Prop} {good : Role → Stamped → Files → Prop} {schedule : Schedule}
  {start files : Files}

/-- The state of the directory between two calls. -/
structure Shelved (base : Files → Prop) (good : Role → Stamped → Files → Prop) (files : Files) :
    Prop where
  holds : base files
  named : ∀ marker ∈ files.markers.rows, marker.manifest.generation = some marker.name
  past : ∀ marker ∈ files.markers.rows, marker.name < files.clock
  sound : ∀ generation role file, files.copyOf generation role = some file → good role file files

theorem Shelved.readable (hshelved : Shelved base good files) : files.Named :=
  fun marker hmarker _ hname =>
    Option.eq_some_unique hname (hshelved.named marker hmarker)

theorem Shelved.thinned (hshelved : Shelved base good start) (hregime : Regime base good)
    {safe : ℕ → Prop} (hthinned : Thinned schedule safe start files) :
    Shelved base good files where
  holds := hthinned.evolves hregime.live hshelved.holds
  named marker hmarker :=
    hshelved.named marker (Table.mem_of_get (hthinned.markers _ _ (Table.get_of_mem hmarker)))
  past marker hmarker :=
    (hshelved.past marker (Table.mem_of_get (hthinned.markers _ _
      (Table.get_of_mem hmarker)))).trans_le hthinned.clock
  sound generation role file hcopy :=
    (hthinned.evolves (hregime.copies role file) ⟨hshelved.holds,
      hshelved.sound generation role file (hthinned.copies generation role file hcopy)⟩).2

/-- A call of `create_snapshot` under way keeps what it finds; the manifests are those of the
start. -/
theorem Underway.shelved {timestamp : ℕ} {copied published : List Role}
    (hunderway : Underway base good schedule start timestamp copied published files)
    (hnamed : ∀ marker ∈ start.markers.rows, marker.manifest.generation = some marker.name)
    (hpast : ∀ marker ∈ start.markers.rows, marker.name ≤ timestamp) :
    Shelved base good files where
  holds := hunderway.holds
  named := hunderway.markers ▸ hnamed
  past marker hmarker :=
    (hpast marker (hunderway.markers ▸ hmarker)).trans_lt hunderway.clock
  sound := hunderway.sound

theorem mem_withMarker {marker other : Marker}
    (hmem : other ∈ (files.withMarker marker).markers.rows) :
    other = marker ∨ other ∈ files.markers.rows := by
  have hget : (files.markers.put marker).get other.name = some other := Table.get_of_mem hmem
  rw [Table.get_put] at hget
  split at hget
  · exact Or.inl (Option.some.inj hget).symm
  · exact Or.inr (Table.mem_of_get hget)

theorem newest_withMarker {time : ℕ} (hshelved : Shelved base good files) :
    (files.withMarker ⟨files.clock, ⟨some files.clock, time⟩⟩).Newest
      ⟨files.clock, ⟨some files.clock, time⟩⟩ := by
  refine ⟨Table.mem_of_get (Table.get_put_self files.markers _), fun other hother => ?_⟩
  rcases mem_withMarker hother with rfl | hmem
  · exact le_rfl
  · exact (hshelved.past other hmem).le

theorem Shelved.published {timestamp time : ℕ} {copied published : List Role}
    (hshelved : Shelved base good start) (htimestamp : timestamp = start.clock)
    (hunderway : Underway base good schedule
      (start.withMarker ⟨timestamp, ⟨some timestamp, time⟩⟩) timestamp copied published files) :
    Shelved base good files := by
  refine hunderway.shelved (fun marker hmarker => ?_) fun marker hmarker => ?_
  · rcases mem_withMarker hmarker with rfl | hmem
    · rfl
    · exact hshelved.named marker hmem
  · rcases mem_withMarker hmarker with rfl | hmem
    · exact le_rfl
    · exact htimestamp ▸ (hshelved.past marker hmem).le

/-- A pair without writes and an empty directory. -/
def newPair : Files where
  clock := 1
  live := fun _ => some ⟨.whole [], 1⟩
  wal := fun _ => none
  shm := fun _ => false
  staged := fun _ => none
  tmp := fun _ _ => none
  finals := .empty
  manifestTmp := fun _ => none
  markers := .empty

end Pallium.Snapshot
