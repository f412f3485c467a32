import Pallium.Retention.Pass

/-!
# The scan of a retention pass

A scan takes the terminal items behind the cursor in the order of their keys, as far as
its limits go.  So every terminal item behind the cursor has been scanned, or it lies
behind the last one that has.
-/

namespace Pallium.Retention

open Pallium.Paging (Beyond exists_last_lt)

/-- The cursor as it was when the items were picked. -/
def Prepared.cursor (prepared : Prepared) : Option (ℤ ×ₗ String) :=
  MaintenanceStateRecord.cursor ⟨none, none, none, prepared.cursorTime, prepared.cursorId⟩

/-- The ids of what has been scanned. -/
def Prepared.scannedIds (prepared : Prepared) : List String :=
  prepared.scanned.map SourceItemRecord.id

/-- The item is there, is terminal, and has the position. -/
def RetentionStore.TerminalAt (store : RetentionStore) (sourceItemId : String)
    (position : ℤ ×ₗ String) : Prop :=
  ∃ record, store.sourceItems.get sourceItemId = some record ∧ record.terminal = true ∧
    record.scanKey = position

namespace RetentionStore

variable {store after : RetentionStore} {policy : MemoryRetentionPolicy} {now : ℤ}
  {deleteLimit scanLimit : ℕ}

theorem scanned_prepareFrom (store : RetentionStore) (policy : MemoryRetentionPolicy) (now : ℤ)
    (deleteLimit : ℕ) (candidates : List SourceItemRecord) (prepared : Prepared) :
    ∃ count, (store.prepareFrom policy now deleteLimit candidates prepared).scanned =
        prepared.scanned ++ candidates.take count ∧ (candidates ≠ [] → 0 < count) := by
  induction candidates generalizing prepared with
  | nil => exact ⟨0, (List.append_nil _).symm, fun hne => absurd rfl hne⟩
  | cons record rest ih =>
    have hmore : ∀ next : Prepared, next.scanned = prepared.scanned ++ [record] →
        ∃ count, (store.prepareFrom policy now deleteLimit rest next).scanned =
          prepared.scanned ++ (record :: rest).take count ∧ (record :: rest ≠ [] → 0 < count) := by
      intro next hnext
      obtain ⟨count, hscanned, -⟩ := ih next
      refine ⟨count + 1, ?_, fun _ => Nat.succ_pos count⟩
      rw [hscanned, hnext, List.take_succ_cons, List.append_assoc, List.singleton_append]
    rw [prepareFrom]
    simp only
    split
    · exact hmore _ rfl
    · split
      · exact hmore _ rfl
      · split
        · exact ⟨1, rfl, fun _ => Nat.one_pos⟩
        · exact hmore _ rfl

theorem cursor_prepareFrom (candidates : List SourceItemRecord) (prepared : Prepared) :
    (store.prepareFrom policy now deleteLimit candidates prepared).cursor = prepared.cursor := by
  induction candidates generalizing prepared with
  | nil => rfl
  | cons record rest ih =>
    rw [prepareFrom]
    simp only
    split
    · exact ih _
    · split
      · exact ih _
      · split
        · rfl
        · exact ih _

theorem cursor_prepareSourceChunk :
    (store.prepareSourceChunk policy now deleteLimit scanLimit).cursor = store.cursor := by
  unfold prepareSourceChunk
  rw [cursor_prepareFrom, cursor]
  change MaintenanceStateRecord.cursor ⟨none, none, none,
    store.maintenance.bind MaintenanceStateRecord.sourceScanCursorCreatedAt,
    store.maintenance.bind MaintenanceStateRecord.sourceScanCursorId⟩ = _
  cases store.maintenance with
  | none => rfl
  | some record => rfl

/-- A terminal item behind the cursor is scanned, or lies behind the last scanned item. -/
theorem scanned_or_behind {sourceItemId : String} {position : ℤ ×ₗ String}
    (hitem : store.TerminalAt sourceItemId position) (hbehind : Beyond store.cursor position)
    (hlimit : 0 < scanLimit) :
    sourceItemId ∈ (store.prepareSourceChunk policy now deleteLimit scanLimit).scannedIds ∨
      ∃ last, (store.prepareSourceChunk policy now deleteLimit scanLimit).scanned.getLast? =
        some last ∧ last.scanKey < position := by
  obtain ⟨record, hget, hterminal, rfl⟩ := hitem
  have hid : record.id = sourceItemId := Table.key_of_get hget
  generalize hwaiting : (store.sourceItems.rows.filter SourceItemRecord.terminal).filter
    (fun record => decide (Beyond store.cursor record.scanKey)) = waiting
  generalize hsorted : waiting.insertionSort
    (fun first second => first.scanKey ≤ second.scanKey) = sorted
  have hmem : record ∈ sorted := by
    rw [← hsorted, List.mem_insertionSort, ← hwaiting, List.mem_filter, List.mem_filter]
    exact ⟨⟨Table.mem_of_get hget, hterminal⟩, decide_eq_true hbehind⟩
  -- the keys are sorted, and no two items share one, since a key has the id
  have hkeys : (sorted.map SourceItemRecord.scanKey).Pairwise (· < ·) := by
    have hnodup : (sorted.map SourceItemRecord.scanKey).Nodup := by
      apply List.Nodup.of_map fun position : ℤ ×ₗ String => (ofLex position).2
      rw [List.map_map, ← hsorted]
      apply ((List.perm_insertionSort _ waiting).map _).nodup_iff.mpr
      rw [← hwaiting]
      exact ((List.filter_sublist.trans List.filter_sublist).map _).nodup
        store.sourceItems.nodup
    have hle : (sorted.map SourceItemRecord.scanKey).Pairwise (· ≤ ·) := by
      rw [List.pairwise_map, ← hsorted]
      exact List.pairwise_insertionSort _ waiting
    exact (hle.and hnodup).imp fun hboth => lt_of_le_of_ne hboth.1 hboth.2
  obtain ⟨count, hscanned, hpositive⟩ :
      ∃ count, (store.prepareSourceChunk policy now deleteLimit scanLimit).scanned =
        (sorted.take scanLimit).take count ∧ (sorted.take scanLimit ≠ [] → 0 < count) := by
    rw [prepareSourceChunk, nextSourceRetentionCandidates, hwaiting, hsorted]
    exact scanned_prepareFrom store policy now deleteLimit _ _
  have hprepared : (store.prepareSourceChunk policy now deleteLimit scanLimit).scanned =
      sorted.take (min count scanLimit) := by
    rw [hscanned, List.take_take]
  have hne : sorted.take scanLimit ≠ [] := by
    intro hnil
    rcases List.take_eq_nil_iff.mp hnil with hzero | hempty
    · omega
    · exact List.ne_nil_of_mem hmem hempty
  have htaken : 0 < min count scanLimit := by
    have := hpositive hne
    omega
  by_cases hin : record.scanKey ∈ (sorted.map SourceItemRecord.scanKey).take (min count scanLimit)
  · left
    rw [← List.map_take, List.mem_map] at hin
    obtain ⟨other, hother, hsame⟩ := hin
    rw [Prepared.scannedIds, hprepared, List.mem_map]
    refine ⟨other, hother, ?_⟩
    rw [← hid]
    exact congrArg (fun position : ℤ ×ₗ String => (ofLex position).2) hsame
  · right
    obtain ⟨last, hlast, -, hlt⟩ := exists_last_lt htaken hkeys (List.mem_map_of_mem hmem) hin
    rw [← List.map_take, List.getLast?_map, Option.map_eq_some_iff] at hlast
    obtain ⟨other, hother, rfl⟩ := hlast
    exact ⟨other, hprepared ▸ hother, hlt⟩

theorem cursor_eq_none_of_unset {prepared : Prepared}
    (hunset : ¬ (prepared.cursorTime.isSome ∧ prepared.cursorId.getD "" ≠ "")) :
    prepared.cursor = none := by
  unfold Prepared.cursor MaintenanceStateRecord.cursor
  cases htime : prepared.cursorTime with
  | none => rfl
  | some createdAt =>
    cases hid : prepared.cursorId with
    | none => rfl
    | some id =>
      rw [htime, hid] at hunset
      by_cases hempty : id = ""
      · exact if_pos hempty
      · exact absurd ⟨rfl, hempty⟩ hunset

theorem cursor_commitSourceChunk {lease : Option RetentionLease} {leaseNow : ℤ}
    {prepared : Prepared} {stats : RetentionRunStats}
    (hcommit : store.commitSourceChunk policy now lease leaseNow prepared =
      .ok (some (after, stats))) :
    store.cursor = prepared.cursor ∧
      after.cursor = prepared.scanned.getLast?.map SourceItemRecord.scanKey := by
  obtain ⟨hmarker, deleted, -, rfl⟩ := commitSourceChunk_eq_ok hcommit
  have hcolumns : (store.maintenance.getD .new).sourceScanCursorCreatedAt = prepared.cursorTime ∧
      (store.maintenance.getD .new).sourceScanCursorId = prepared.cursorId := by
    unfold markerUnchanged at hmarker
    cases hmaintenance : store.maintenance with
    | none =>
      rw [hmaintenance] at hmarker
      obtain ⟨htime, hid⟩ := prepared.absent (Bool.not_eq_true' _ ▸ hmarker)
      exact ⟨htime.symm, hid.symm⟩
    | some record =>
      rw [hmaintenance] at hmarker
      simp only [Bool.and_eq_true, beq_iff_eq] at hmarker
      exact ⟨hmarker.1.2, hmarker.2⟩
  have hcursor : (store.maintenance.getD .new).cursor = prepared.cursor := by
    rw [MaintenanceStateRecord.cursor, hcolumns.1, hcolumns.2]
    rfl
  refine ⟨?_, ?_⟩
  · rw [← hcursor, cursor]
    cases store.maintenance with
    | none => rfl
    | some record => rfl
  · change (moveCursor prepared (store.maintenance.getD .new)).cursor = _
    unfold moveCursor
    cases hlast : prepared.scanned.getLast? with
    | some last =>
      rw [Option.map_some]
      exact if_neg last.named
    | none =>
      rw [Option.map_none]
      simp only
      split
      · rfl
      · next hunset =>
          rw [hcursor]
          exact cursor_eq_none_of_unset hunset

end RetentionStore

end Pallium.Retention
