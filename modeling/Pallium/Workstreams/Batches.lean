import Pallium.Workstreams.Reload

/-!
# Batches of items

A registry that is loaded again has forgotten which thread touched its workstreams last,
and titles beyond the third.  Where no item joins by recency a workstream of an earlier
batch and no workstream has more titles at a cut, the batches assign what one batch
assigns.
-/

namespace Pallium.Workstreams

section Views

variable {host : Host} {scope : Scope} {signals : ItemSignals} {threadRef : Option String}
  {createdAt : ℤ} {opened : List WorkstreamRecord} {view : WorkstreamRecord → WorkstreamRecord}

theorem find?_eq_of_imp {α : Type*} {searched other : α → Bool} {items : List α}
    (himp : ∀ item ∈ items, other item = true → searched item = true)
    (hfirst : ∀ item, items.find? searched = some item → other item = true) :
    items.find? other = items.find? searched := by
  cases hsearched : items.find? searched with
  | none =>
    refine List.find?_eq_none.mpr fun item hitem hother => ?_
    exact List.find?_eq_none.mp hsearched item hitem (himp item hitem hother)
  | some first =>
    obtain ⟨-, before, after, rfl, hbefore⟩ := List.find?_eq_some_iff_append.mp hsearched
    refine List.find?_eq_some_iff_append.mpr ⟨hfirst first hsearched, before, after, rfl, ?_⟩
    intro item hitem
    rw [Bool.not_eq_true', ← Bool.not_eq_true]
    intro hother
    simpa [himp item (List.mem_append_left _ hitem) hother] using hbefore item hitem

/-- A view of workstreams in which the item finds the same ids and shared signals. -/
structure Faithful (host : Host) (signals : ItemSignals)
    (view : WorkstreamRecord → WorkstreamRecord) : Prop where
  workstreamId : ∀ record, (view record).workstreamId = record.workstreamId
  overlaps : ∀ record kind,
    (view record).overlaps host signals kind = record.overlaps host signals kind
  covers : ∀ record, (view record).covers host signals = record.covers host signals

theorem findOverlap_map (opened : List WorkstreamRecord) (hview : Faithful host signals view) :
    findOverlap host signals (opened.map view) =
      (findOverlap host signals opened).map fun found => (found.1, view found.2) := by
  rw [findOverlap, findOverlap, List.map_findSome?]
  refine congrArg (fun search => List.findSome? search Kind.all) (funext fun kind => ?_)
  rw [List.find?_map, Function.comp_apply, Option.map_map, Option.map_map]
  refine congrArg _ ?_
  exact congrArg (fun search => List.find? search opened)
    (funext fun record => hview.overlaps record kind)

/-- The cascade chooses in a view what it chooses among the workstreams if the view keeps
the first recent one. -/
theorem choose_map (hview : Faithful host signals view)
    (hrecent : findOverlap host signals opened = none →
      (opened.find? fun record => (view record).recent signals threadRef createdAt) =
        opened.find? fun record => record.recent signals threadRef createdAt) :
    choose host signals threadRef createdAt (opened.map view) =
      choose host signals threadRef createdAt opened := by
  cases hoverlap : findOverlap host signals opened with
  | some found =>
    obtain ⟨kind, record⟩ := found
    have hmapped := findOverlap_map opened hview
    rw [hoverlap, Option.map_some] at hmapped
    rw [choose_of_overlap hmapped, choose_of_overlap hoverlap, hview.workstreamId]
  | none =>
    have hmapped := findOverlap_map opened hview
    rw [hoverlap, Option.map_none] at hmapped
    have hfind := List.find?_map (p := fun record : WorkstreamRecord =>
      record.recent signals threadRef createdAt) (f := view) (l := opened)
    rw [show (fun record : WorkstreamRecord => record.recent signals threadRef createdAt) ∘ view =
      fun record => (view record).recent signals threadRef createdAt from rfl,
      hrecent hoverlap] at hfind
    cases hfirst : opened.find? fun record => record.recent signals threadRef createdAt with
    | some record =>
      rw [hfirst, Option.map_some] at hfind
      rw [choose_of_recent hmapped hfind, choose_of_recent hoverlap hfirst,
        hview.workstreamId]
    | none =>
      rw [hfirst, Option.map_none] at hfind
      rw [choose_of_neither hmapped hfind, choose_of_neither hoverlap hfirst, chooseAlone,
        chooseAlone, List.head?_map]
      cases opened.head? with
      | none => rfl
      | some mostRecent =>
        simp only [Option.map_some, hview.covers, hview.workstreamId]

/-- What is open at a time, the most recent first. -/
def live {β : Type*} (time : β → ℤ) (now : ℤ) (views : List β) : List β :=
  (views.filter fun view => now - openWindow ≤ time view).insertionSort
    fun left right => time right ≤ time left

/-- The open workstreams in a view that shows their touches and not whether they were
closed. -/
theorem map_openRecords {β : Type*} {registry : Registry} {now : ℤ}
    {view : WorkstreamRecord → β} {time : β → ℤ}
    (htouched : ∀ record, time (view record) = record.lastTouchedAt)
    (hexpire : ∀ record, view (record.expire scope now) = view record)
    (hrecords : ∀ record ∈ registry.rows, record.scope = scope ∧
      (record.closed = true → record.lastTouchedAt < now - openWindow)) :
    (registry.openRecords scope now).map view = live time now (registry.rows.map view) := by
  have horder : ∀ left right : WorkstreamRecord,
      mostRecentFirst left right ↔ time (view right) ≤ time (view left) := by
    intro left right
    rw [mostRecentFirst, htouched, htouched]
  rw [Registry.openRecords, live, List.map_insertionSort mostRecentFirst
    (fun left right : β => time right ≤ time left) view _ fun left _ right _ => horder left right]
  · rw [Registry.rows_close, List.filter_map, List.filter_map, List.map_map]
    congr 1
    have hview : view ∘ WorkstreamRecord.expire scope now = view := funext hexpire
    rw [hview]
    congr 1
    refine List.filter_congr fun record hrecord => ?_
    obtain ⟨hscope, hclosed⟩ := hrecords record hrecord
    rw [Function.comp_apply, Function.comp_apply, htouched, WorkstreamRecord.scope_expire, hscope,
      WorkstreamRecord.expire]
    by_cases hlate : record.lastTouchedAt < now - openWindow
    · rw [if_pos ⟨hscope, hlate⟩, decide_eq_false (not_le.mpr hlate)]
      exact Bool.and_false _
    · have hopen : record.closed = false := by
        cases hflag : record.closed with
        | false => rfl
        | true => exact absurd (hclosed hflag) hlate
      rw [if_neg fun h => hlate h.2, hopen, decide_eq_true (not_lt.mp hlate)]
      simp

end Views

/-- The ids that were assigned since a batch began. -/
def Progress.since (progress : Progress) (start : ℕ) : List String :=
  (progress.assigned.drop start).map fun entry => entry.2.workstreamId

/-- The record as a batch sees it that has assigned some ids: the last thread of the other
workstreams is forgotten. -/
def WorkstreamRecord.forget (touched : List String) (record : WorkstreamRecord) :
    WorkstreamRecord :=
  if record.workstreamId ∈ touched then record else { record with lastTouchedThread := none }

/-- The record with what a touch makes of it, as far as the cascade sees it. -/
def WorkstreamRecord.joined (host : Host) (signals : ItemSignals) (threadRef : Option String)
    (createdAt : ℤ) (workstreamId : String) (record : WorkstreamRecord) : WorkstreamRecord :=
  if record.workstreamId = workstreamId then
    (record.attach host signals threadRef createdAt).shape
  else record

section Forget

variable {host : Host} {scope : Scope} {signals : ItemSignals} {threadRef : Option String}
  {createdAt : ℤ} (touched : List String)

theorem faithful_shape : Faithful host signals WorkstreamRecord.shape where
  workstreamId := fun _ => rfl
  overlaps := fun _ kind => by cases kind <;> rfl
  covers := fun _ => rfl

variable (registry : Registry) (record : WorkstreamRecord) (workstreamId : String)

@[simp]
theorem WorkstreamRecord.workstreamId_forget :
    (record.forget touched).workstreamId = record.workstreamId := by
  rw [forget]
  split <;> rfl

theorem faithful_forget :
    Faithful host signals fun record => (record.forget touched).shape where
  workstreamId := fun record => record.workstreamId_forget touched
  overlaps := fun record kind => by
    rw [WorkstreamRecord.forget]
    split <;> cases kind <;> rfl
  covers := fun record => by
    rw [WorkstreamRecord.forget]
    split <;> rfl

theorem WorkstreamRecord.lastTouchedAt_forget :
    (record.forget touched).shape.lastTouchedAt = record.lastTouchedAt := by
  rw [forget]
  split <;> rfl

theorem WorkstreamRecord.shape_expire (scope : Scope) (now : ℤ) (record : WorkstreamRecord) :
    (record.expire scope now).shape = record.shape := by
  rw [expire]
  split <;> rfl

theorem WorkstreamRecord.forget_expire (scope : Scope) (now : ℤ) (record : WorkstreamRecord) :
    ((record.expire scope now).forget touched).shape = (record.forget touched).shape := by
  rw [forget, forget, workstreamId_expire]
  split
  · exact record.shape_expire scope now
  · rw [expire]
    split <;> rfl

theorem WorkstreamRecord.recent_forget {record : WorkstreamRecord}
    (hrecent : (record.forget touched).shape.recent signals threadRef createdAt = true) :
    record.recent signals threadRef createdAt = true := by
  rw [forget] at hrecent
  split at hrecent
  · exact hrecent
  · cases threadRef with
    | none => exact hrecent
    | some thread =>
      exact absurd hrecent (by simp [recent, shape])

theorem WorkstreamRecord.forget_append_of_ne {record : WorkstreamRecord} {workstreamId : String}
    (hother : record.workstreamId ≠ workstreamId) :
    record.forget (touched ++ [workstreamId]) = record.forget touched := by
  simp only [forget, List.mem_append, List.mem_singleton, hother, or_false]

theorem WorkstreamRecord.forget_append_self :
    record.forget (touched ++ [record.workstreamId]) = record :=
  if_pos (List.mem_append_right _ (List.mem_singleton.mpr rfl))

theorem WorkstreamRecord.joined_forget (record : WorkstreamRecord) :
    (record.forget touched).shape.joined host signals threadRef createdAt workstreamId =
      ((if key record = workstreamId then record.attach host signals threadRef createdAt
        else record).forget (touched ++ [workstreamId])).shape := by
  rw [joined]
  change (if (record.forget touched).workstreamId = _ then _ else _) = _
  rw [workstreamId_forget, key_workstreamRecord]
  by_cases hsame : record.workstreamId = workstreamId
  · subst hsame
    rw [if_pos rfl, if_pos rfl]
    have hself := (record.attach host signals threadRef createdAt).forget_append_self touched
    change (record.attach host signals threadRef createdAt).forget
      (touched ++ [record.workstreamId]) = _ at hself
    rw [hself, forget]
    split <;> rfl
  · rw [if_neg hsame, if_neg hsame, forget_append_of_ne touched hsame]

theorem shape_touched :
    ((registry.close scope createdAt).modify workstreamId fun record =>
        record.attach host signals threadRef createdAt).rows.map WorkstreamRecord.shape =
      (registry.rows.map WorkstreamRecord.shape).map
        (WorkstreamRecord.joined host signals threadRef createdAt workstreamId) := by
  rw [Table.modify, Table.rows_updateAll _ (by intro other; split <;> rfl), Registry.rows_close,
    List.map_map, List.map_map, List.map_map]
  refine List.map_congr_left fun record _ => ?_
  simp only [Function.comp_apply]
  rw [← record.shape_expire scope createdAt, WorkstreamRecord.joined]
  change _ = if (record.expire scope createdAt).workstreamId = workstreamId then _ else _
  rw [key_workstreamRecord]
  split <;> rfl

theorem forget_touched :
    ((registry.close scope createdAt).modify workstreamId fun record =>
        record.attach host signals threadRef createdAt).rows.map
          (fun record => (record.forget (touched ++ [workstreamId])).shape) =
      (registry.rows.map fun record => (record.forget touched).shape).map
        (WorkstreamRecord.joined host signals threadRef createdAt workstreamId) := by
  rw [Table.modify, Table.rows_updateAll _ (by intro other; split <;> rfl), Registry.rows_close,
    List.map_map, List.map_map, List.map_map]
  refine List.map_congr_left fun record _ => ?_
  simp only [Function.comp_apply]
  rw [← WorkstreamRecord.joined_forget, WorkstreamRecord.forget_expire]

theorem shape_opened (opened : WorkstreamRecord) :
    ((registry.close scope createdAt).set opened).rows.map WorkstreamRecord.shape =
      if (registry.get opened.workstreamId).isSome then
        (registry.rows.map WorkstreamRecord.shape).map fun record =>
          if record.workstreamId = opened.workstreamId then opened.shape else record
      else registry.rows.map WorkstreamRecord.shape ++ [opened.shape] := by
  rw [Table.rows_set, key_workstreamRecord, get_isSome_close, Registry.rows_close]
  split
  · rw [List.map_map, List.map_map, List.map_map]
    refine List.map_congr_left fun record _ => ?_
    simp only [Function.comp_apply, key_workstreamRecord]
    rw [← record.shape_expire scope createdAt]
    change _ = if (record.expire scope createdAt).workstreamId = _ then _ else _
    split <;> rfl
  · rw [List.map_append, List.map_map, List.map_singleton]
    refine congrArg (· ++ _) (List.map_congr_left fun record _ => ?_)
    exact record.shape_expire scope createdAt

/-- The same workstream opened in the registry of the whole list. -/
theorem forget_opened (opened : WorkstreamRecord) :
    ((registry.close scope createdAt).set opened).rows.map
        (fun record => (record.forget (touched ++ [opened.workstreamId])).shape) =
      if (registry.get opened.workstreamId).isSome then
        (registry.rows.map fun record => (record.forget touched).shape).map fun record =>
          if record.workstreamId = opened.workstreamId then opened.shape else record
      else (registry.rows.map fun record => (record.forget touched).shape) ++ [opened.shape] := by
  rw [Table.rows_set, key_workstreamRecord, get_isSome_close, Registry.rows_close]
  split
  · rw [List.map_map, List.map_map, List.map_map]
    refine List.map_congr_left fun record _ => ?_
    simp only [Function.comp_apply, key_workstreamRecord]
    rw [← record.forget_expire touched scope createdAt]
    change _ = if ((record.expire scope createdAt).forget touched).workstreamId = _ then _ else _
    rw [WorkstreamRecord.workstreamId_forget]
    split
    · rw [opened.forget_append_self]
    · next hother => rw [WorkstreamRecord.forget_append_of_ne touched hother]
  · next habsent =>
    rw [List.map_append, List.map_map, List.map_singleton, opened.forget_append_self]
    refine congrArg (· ++ _) (List.map_congr_left fun record hrecord => ?_)
    have hother : record.workstreamId ≠ opened.workstreamId := by
      intro hsame
      have hget : registry.get record.workstreamId = some record := Table.get_of_mem hrecord
      rw [← hsame, hget] at habsent
      exact habsent rfl
    rw [Function.comp_apply, WorkstreamRecord.forget_append_of_ne touched
      (by rw [WorkstreamRecord.workstreamId_expire]; exact hother)]
    exact record.forget_expire touched scope createdAt

end Forget

/-- Closed workstreams were last touched before the open window. -/
def Expired (now : ℤ) (registry : Registry) : Prop :=
  ∀ record ∈ registry.rows, record.closed = true → record.lastTouchedAt < now - openWindow

variable {result : AssignmentResult} {database : Database}

theorem Expired.assigned {host : Host} {scope : Scope} {signals : ItemSignals}
    {threadRef : Option String} {now createdAt : ℤ} {registry after : Registry}
    (hexpired : Expired now registry) (hnow : now ≤ createdAt)
    (hassign : assignWorkstreamForItem host scope signals threadRef createdAt registry =
      some (after, result)) : Expired createdAt after := by
  refine forall_assigned hassign (fun record hrecord => ?_) (fun record hopen _ hclosed => ?_)
    (fun _ hclosed => nomatch hclosed) fun record hrecord hclosed =>
      lt_of_lt_of_le (hexpired record hrecord hclosed) (Int.sub_le_sub_right hnow openWindow)
  · rw [WorkstreamRecord.expire]
    split
    · next hlate => exact fun _ => hlate.2
    · exact hrecord
  · have hstill : record.closed = false :=
      ((Registry.mem_openRecords scope createdAt).mp hopen).2.2
    change record.closed = true at hclosed
    rw [hstill] at hclosed
    cases hclosed

/-- Another scope holds the id. -/
def Foreign (scope : Scope) (database : Database) (workstreamId : String) : Prop :=
  ∃ row, database.workstreams.get workstreamId = some row ∧ row.scope ≠ scope

theorem foreign_recorded {scope : Scope} {item : SourceItem} {workstreamId : String} :
    Foreign scope (recorded scope database item result) workstreamId ↔
      Foreign scope database workstreamId := by
  rw [Foreign, Foreign, recorded]
  split
  · rw [Database.recordUnknownWorkstream, get_upsertWorkstream]
    split
    · next hid =>
      subst hid
      cases hfound : database.workstreams.get result.workstreamId with
      | none => simp [WorkstreamRow.scope]
      | some found => simp [WorkstreamRow.scope, WorkstreamRow.merged]
    · rfl
  · rfl

/-- How an assignment in batches stands to the assignment of the whole list: the batch sees
the workstreams of the whole without the threads that touched them earlier. -/
structure Follows (host : Host) (scope : Scope) (now : ℤ) (start : ℕ) (whole part : Progress) :
    Prop where
  assigned : part.assigned = whole.assigned.drop start
  begun : start ≤ whole.assigned.length
  rows : part.registry.rows.map WorkstreamRecord.shape =
    whole.registry.rows.map fun record => (record.forget (whole.since start)).shape
  expiredWhole : Expired now whole.registry
  expiredPart : Expired now part.registry
  foreign : ∀ workstreamId, Foreign scope part.database workstreamId →
    Foreign scope whole.database workstreamId
  loaded : Loaded host scope part

section Step

variable {host : Host} {scope : Scope} {now : ℤ} {start : ℕ} {whole part : Progress}
  {offered : SignalledItem}

variable (hfollows : Follows host scope now start whole part)
include hfollows

theorem Follows.whole_records {record : WorkstreamRecord}
    (hrecord : record ∈ whole.registry.rows) :
    record.scope = scope ∧ IsResolvedId record.workstreamId := by
  have hmem : (record.forget (whole.since start)).shape ∈
      part.registry.rows.map WorkstreamRecord.shape := by
    rw [hfollows.rows]
    exact List.mem_map_of_mem hrecord
  obtain ⟨other, hother, hsame⟩ := List.mem_map.mp hmem
  obtain ⟨hscope, hid, -⟩ := hfollows.loaded.records other hother
  have hsameId : other.workstreamId = record.workstreamId :=
    (congrArg WorkstreamRecord.workstreamId hsame).trans
      (record.workstreamId_forget (whole.since start))
  have hsameScope : other.scope = record.scope := by
    refine (congrArg WorkstreamRecord.scope hsame).trans ?_
    rw [WorkstreamRecord.forget]
    split <;> rfl
  exact ⟨hsameScope ▸ hscope, hsameId ▸ hid⟩

theorem Follows.keys :
    part.registry.rows.map key = whole.registry.rows.map key := by
  have hkeys := congrArg (List.map WorkstreamRecord.workstreamId) hfollows.rows
  rw [List.map_map, List.map_map] at hkeys
  refine hkeys.trans (List.map_congr_left fun record _ => ?_)
  exact record.workstreamId_forget _

theorem Follows.isSome (workstreamId : String) :
    (part.registry.get workstreamId).isSome = (whole.registry.get workstreamId).isSome := by
  rw [Bool.eq_iff_iff, Loaded.get_isSome_iff, Loaded.get_isSome_iff, hfollows.keys]

theorem Follows.openRecords {createdAt : ℤ} (hnow : now ≤ createdAt) :
    (part.registry.openRecords scope createdAt).map WorkstreamRecord.shape =
      (whole.registry.openRecords scope createdAt).map fun record =>
        (record.forget (whole.since start)).shape := by
  have hpart : (part.registry.openRecords scope createdAt).map WorkstreamRecord.shape =
      live WorkstreamRecord.lastTouchedAt createdAt
        (part.registry.rows.map WorkstreamRecord.shape) :=
    map_openRecords (fun _ => rfl) (WorkstreamRecord.shape_expire scope createdAt)
    fun record hrecord => ⟨(hfollows.loaded.records record hrecord).1, fun hclosed =>
      lt_of_lt_of_le (hfollows.expiredPart record hrecord hclosed)
        (Int.sub_le_sub_right hnow openWindow)⟩
  have hwhole : ((whole.registry.openRecords scope createdAt).map fun record =>
        (record.forget (whole.since start)).shape) =
      live WorkstreamRecord.lastTouchedAt createdAt
        (whole.registry.rows.map fun record => (record.forget (whole.since start)).shape) :=
    map_openRecords (WorkstreamRecord.lastTouchedAt_forget _)
      (WorkstreamRecord.forget_expire _ scope createdAt)
    fun record hrecord => ⟨(hfollows.whole_records hrecord).1, fun hclosed =>
      lt_of_lt_of_le (hfollows.expiredWhole record hrecord hclosed)
        (Int.sub_le_sub_right hnow openWindow)⟩
  rw [hpart, hwhole, hfollows.rows]

/-- An item that joins by recency joins a workstream that the batch has touched. -/
def RecentHere (host : Host) (scope : Scope) (start : ℕ) (progress : Progress)
    (offered : SignalledItem) : Prop :=
  ∀ record ∈ progress.registry.openRecords scope offered.item.createdAt,
    choose host offered.signals offered.item.threadRef offered.item.createdAt
        (progress.registry.openRecords scope offered.item.createdAt) =
      .attach .sameThreadRecency record.workstreamId →
    record.workstreamId ∈ progress.since start

variable (hnow : now ≤ offered.item.createdAt)
include hnow

variable (hrecent : RecentHere host scope start whole offered)
include hrecent

/-- The batch chooses what the whole chooses. -/
theorem Follows.choose :
    choose host offered.signals offered.item.threadRef offered.item.createdAt
        (part.registry.openRecords scope offered.item.createdAt) =
      choose host offered.signals offered.item.threadRef offered.item.createdAt
        (whole.registry.openRecords scope offered.item.createdAt) := by
  have hpart : Workstreams.choose host offered.signals offered.item.threadRef
      offered.item.createdAt ((part.registry.openRecords scope offered.item.createdAt).map
        WorkstreamRecord.shape) =
      Workstreams.choose host offered.signals offered.item.threadRef offered.item.createdAt
        (part.registry.openRecords scope offered.item.createdAt) :=
    choose_map faithful_shape fun _ => rfl
  rw [← hpart, hfollows.openRecords hnow]
  refine choose_map (faithful_forget (whole.since start)) fun hnone => ?_
  refine find?_eq_of_imp (fun record _ => WorkstreamRecord.recent_forget _) fun record hfirst => ?_
  have hhere := hrecent record (List.mem_of_find?_eq_some hfirst)
    (choose_of_recent hnone hfirst)
  have hfound := List.find?_some hfirst
  rw [WorkstreamRecord.forget, if_pos hhere]
  exact hfound

theorem Follows.opensAtHome
    (hhome : OpensAtHome host scope whole offered) : OpensAtHome host scope part offered := by
  intro hchoose workstreamId hid
  rw [hfollows.choose hnow hrecent] at hchoose
  rw [Option.all_eq_true]
  intro row hget
  rw [decide_eq_true_eq]
  by_contra hother
  obtain ⟨held, hheld, hforeign⟩ := hfollows.foreign workstreamId ⟨row, hget, hother⟩
  have hall := hhome hchoose workstreamId hid
  rw [hheld, Option.all_some, decide_eq_true_eq] at hall
  exact hforeign hall

/-- The batch assigns the item that the whole assigns. -/
theorem Follows.assign {after : Registry}
    (hassign : assignWorkstreamForItem host scope offered.signals offered.item.threadRef
      offered.item.createdAt whole.registry = some (after, result)) :
    ∃ follow, assignWorkstreamForItem host scope offered.signals offered.item.threadRef
        offered.item.createdAt part.registry = some (follow, result) ∧
      follow.rows.map WorkstreamRecord.shape = after.rows.map fun record =>
        (record.forget (whole.since start ++ [result.workstreamId])).shape := by
  have hchoice := hfollows.choose hnow hrecent
  obtain ⟨workstreamId, stage⟩ := result
  rcases assign_cases hassign with ⟨hchoose, rfl⟩ | ⟨hchoose, hid, rfl, rfl⟩ |
    ⟨hchoose, rfl, rfl, rfl⟩
  · refine ⟨_, assign_attach (hchoice.trans hchoose), ?_⟩
    rw [shape_touched, forget_touched, hfollows.rows]
  · refine ⟨_, assign_openNew (hchoice.trans hchoose) hid, ?_⟩
    refine Eq.trans ?_ (forget_opened (whole.since start) whole.registry (openedRecord host scope
      offered.signals offered.item.threadRef offered.item.createdAt workstreamId)).symm
    rw [shape_opened, hfollows.isSome, hfollows.rows]
  · refine ⟨_, assign_unknown (hchoice.trans hchoose), ?_⟩
    rw [Registry.rows_close, Registry.rows_close, List.map_map, List.map_map]
    have hshape : WorkstreamRecord.shape ∘
        WorkstreamRecord.expire scope offered.item.createdAt = WorkstreamRecord.shape :=
      funext (WorkstreamRecord.shape_expire scope offered.item.createdAt)
    rw [hshape, hfollows.rows]
    refine List.map_congr_left fun record hrecord => ?_
    have hother : record.workstreamId ≠ unknownPseudoId scope.containerRef
        offered.item.threadRef (watermarkFor offered.item.createdAt) :=
      (hfollows.whole_records hrecord).2.ne_unknown (isUnknownId_pseudo _ _ _)
    rw [Function.comp_apply, WorkstreamRecord.forget_expire,
      WorkstreamRecord.forget_append_of_ne _ hother]

/-- An item keeps the batch and the whole together. -/
theorem Follows.assignItem (hhome : OpensAtHome host scope whole offered) {next : Progress}
    (hnext : assignItem host scope whole offered = some next) :
    ∃ follow, assignItem host scope part offered = some follow ∧
      Follows host scope offered.item.createdAt start next follow := by
  obtain ⟨registry, result, hassign, rfl⟩ := assignItem_eq_some hnext
  obtain ⟨follow, hfollow, hrows⟩ := hfollows.assign hnow hrecent hassign
  have hpart : Workstreams.assignItem host scope part offered =
      some ⟨(recorded scope part.database offered.item result).insertSourceItemWorkstream
        (linkOf offered.item result), follow, part.assigned ++ [(offered.item.id, result)]⟩ := by
    rw [Workstreams.assignItem, hfollow]
    rfl
  refine ⟨_, hpart, ?_⟩
  have hdrop : (whole.assigned ++ [(offered.item.id, result)]).drop start =
      whole.assigned.drop start ++ [(offered.item.id, result)] :=
    List.drop_append_of_le_length hfollows.begun
  refine ⟨?_, ?_, ?_, hfollows.expiredWhole.assigned hnow hassign,
    hfollows.expiredPart.assigned hnow hfollow, ?_,
    hfollows.loaded.assignItem (hfollows.opensAtHome hnow hrecent hhome) hpart⟩
  · exact (congrArg (· ++ _) hfollows.assigned).trans hdrop.symm
  · rw [List.length_append]
    exact le_trans hfollows.begun (Nat.le_add_right _ _)
  · refine hrows.trans ?_
    have hsince : (Progress.mk ((recorded scope whole.database offered.item
        result).insertSourceItemWorkstream (linkOf offered.item result)) registry
          (whole.assigned ++ [(offered.item.id, result)])).since start =
        whole.since start ++ [result.workstreamId] := by
      rw [Progress.since, hdrop, List.map_append]
      rfl
    rw [hsince]
  · intro workstreamId hforeign
    exact foreign_recorded.mpr (hfollows.foreign workstreamId (foreign_recorded.mp hforeign))

end Step

section Batches

variable (host : Host) (scope : Scope)

/-- The assignments of batches one after the other, with the registry written and loaded
between them. -/
def assignBatches (database : Database) : List (List SignalledItem) →
    List (String × AssignmentResult)
  | [] => []
  | batch :: rest =>
    let outcome := assignBatch host scope batch database
    outcome.1.assigned ++ assignBatches (finishBatch outcome) rest

/-- The batches are assigned what their list is assigned as one batch. -/
def BatchesAgree (database : Database) (batches : List (List SignalledItem)) : Prop :=
  assignBatches host scope database batches =
    (assignBatch host scope batches.flatten database).1.assigned

instance (database : Database) (batches : List (List SignalledItem)) :
    Decidable (BatchesAgree host scope database batches) :=
  inferInstanceAs (Decidable (_ = _))

/-- The items of a batch that began after some assignments join no workstream of an earlier
batch by recency, and open workstreams under ids that no other scope holds. -/
def BatchKeeps (start : ℕ) (progress : Progress) : List SignalledItem → Prop
  | [] => True
  | offered :: rest =>
    RecentHere host scope start progress offered ∧ OpensAtHome host scope progress offered ∧
      ∀ next ∈ assignItem host scope progress offered, BatchKeeps start next rest

/-- What is stored at every cut of the whole list is enough to go on from: no batch reaches
back by recency, and no workstream has more than three titles. -/
def CutsKeep (progress : Progress) : List (List SignalledItem) → Prop
  | [] => True
  | batch :: rest =>
    BatchKeeps host scope progress.assigned.length progress batch ∧
      (rest = [] ∨ ∀ record ∈ (assignItems host scope progress batch).1.registry.rows,
        record.titles.card ≤ 3) ∧
      CutsKeep (assignItems host scope progress batch).1 rest

instance (start : ℕ) (progress : Progress) (offered : SignalledItem) :
    Decidable (RecentHere host scope start progress offered) :=
  inferInstanceAs (Decidable (∀ record ∈ _, _))

instance decidableBatchKeeps (start : ℕ) : ∀ (progress : Progress) (items : List SignalledItem),
    Decidable (BatchKeeps host scope start progress items)
  | _, [] => isTrue trivial
  | progress, offered :: rest =>
    have := fun next => decidableBatchKeeps start next rest
    inferInstanceAs (Decidable (_ ∧ _ ∧ ∀ next ∈ assignItem host scope progress offered,
      BatchKeeps host scope start next rest))

instance decidableCutsKeep : ∀ (progress : Progress) (batches : List (List SignalledItem)),
    Decidable (CutsKeep host scope progress batches)
  | _, [] => isTrue trivial
  | progress, batch :: rest =>
    have := decidableCutsKeep (assignItems host scope progress batch).1 rest
    inferInstanceAs (Decidable (_ ∧ (_ ∨ _) ∧ _))

variable {host scope}

theorem assignItems_append {progress : Progress} (first second : List SignalledItem)
    (hends : (assignItems host scope progress (first ++ second)).2 = true) :
    (assignItems host scope progress first).2 = true ∧
      assignItems host scope progress (first ++ second) =
        assignItems host scope (assignItems host scope progress first).1 second := by
  induction first generalizing progress with
  | nil => exact ⟨rfl, rfl⟩
  | cons offered rest ih =>
    rw [List.cons_append, assignItems] at hends ⊢
    rw [assignItems]
    cases hnext : assignItem host scope progress offered with
    | none =>
      rw [hnext] at hends
      cases hends
    | some next =>
      rw [hnext] at hends
      exact ih hends

theorem assigned_prefix (host : Host) (scope : Scope) (progress : Progress)
    (items : List SignalledItem) :
    progress.assigned <+: (assignItems host scope progress items).1.assigned := by
  induction items generalizing progress with
  | nil => exact List.prefix_refl _
  | cons offered rest ih =>
    rw [assignItems]
    cases hnext : assignItem host scope progress offered with
    | none => exact List.prefix_refl _
    | some next =>
      obtain ⟨registry, result, -, rfl⟩ := assignItem_eq_some hnext
      exact (List.prefix_append _ [(offered.item.id, result)]).trans
        (@ih ⟨_, registry, progress.assigned ++ [(offered.item.id, result)]⟩)

/-- A batch ends where the whole stands at its end. -/
theorem Follows.assignItems {now : ℤ} {start : ℕ} {whole part : Progress}
    {items : List SignalledItem} (hfollows : Follows host scope now start whole part)
    (hnow : ∀ offered ∈ items, now ≤ offered.item.createdAt)
    (hordered : items.Pairwise fun left right => left.item.createdAt ≤ right.item.createdAt)
    (hkeeps : BatchKeeps host scope start whole items)
    (hends : (Workstreams.assignItems host scope whole items).2 = true) :
    (Workstreams.assignItems host scope part items).2 = true ∧
      ∃ last, now ≤ last ∧ (∀ later, (∀ offered ∈ items, offered.item.createdAt ≤ later) →
          now ≤ later → last ≤ later) ∧
        Follows host scope last start (Workstreams.assignItems host scope whole items).1
          (Workstreams.assignItems host scope part items).1 := by
  induction items generalizing now whole part with
  | nil => exact ⟨rfl, now, le_refl now, fun _ _ hlater => hlater, hfollows⟩
  | cons offered rest ih =>
    obtain ⟨hrecent, hhome, hrest⟩ := hkeeps
    obtain ⟨hfirst, hlater⟩ := List.pairwise_cons.mp hordered
    have hoffered := hnow offered List.mem_cons_self
    rw [Workstreams.assignItems] at hends ⊢
    rw [Workstreams.assignItems]
    cases hnext : Workstreams.assignItem host scope whole offered with
    | none =>
      rw [hnext] at hends
      cases hends
    | some next =>
      rw [hnext] at hends
      obtain ⟨follow, hfollow, hfollows⟩ := hfollows.assignItem hoffered hrecent hhome hnext
      rw [hfollow]
      obtain ⟨hpartEnds, last, hlast, hleast, hended⟩ :=
        ih hfollows hfirst hlater (hrest next hnext) hends
      refine ⟨hpartEnds, last, le_trans hoffered hlast, fun later hitems _ => ?_, hended⟩
      exact hleast later (List.forall_mem_cons.mp hitems).2
        (hitems offered List.mem_cons_self)

theorem WorkstreamRecord.shape_reload {record : WorkstreamRecord}
    (hngrams : record.titleNgrams = record.titles.biUnion (Workstreams.titleNgrams host))
    (htitles : record.titles.card ≤ 3) :
    (record.reload host).shape = { record.shape with lastTouchedThread := none } := by
  have hstored : ((sorted record.titles).take 3).toFinset = record.titles := by
    rw [List.take_of_length_le (by rw [length_sorted]; exact htitles)]
    ext title
    rw [List.mem_toFinset, mem_sorted]
  simp only [shape, reload, Database.recordOf, Database.rowOf, signatureBlob, hstored, hngrams]

theorem Follows.reload {now : ℤ} {start : ℕ} {whole part : Progress}
    (hfollows : Follows host scope now start whole part)
    (htitles : ∀ record ∈ whole.registry.rows, record.titles.card ≤ 3) :
    Follows host scope now whole.assigned.length whole
      ⟨part.database.persistRegistry part.registry,
        (part.database.persistRegistry part.registry).loadRegistry host scope, []⟩ := by
  refine ⟨(List.drop_length).symm, le_refl _, ?_, hfollows.expiredWhole, ?_, ?_,
    loaded_start hfollows.loaded.fits_persist⟩
  · have hback : ∀ record ∈ part.registry.rows, (record.reload host).shape =
        { record.shape with lastTouchedThread := none } := by
      intro record hrecord
      have hmem := List.mem_map_of_mem (f := WorkstreamRecord.shape) hrecord
      rw [hfollows.rows] at hmem
      obtain ⟨other, hother, hsame⟩ := List.mem_map.mp hmem
      have hsameTitles : record.titles = other.titles := by
        refine (congrArg WorkstreamRecord.titles hsame).symm.trans ?_
        rw [WorkstreamRecord.forget]
        split <;> rfl
      exact WorkstreamRecord.shape_reload (hfollows.loaded.records record hrecord).2.2
        (hsameTitles ▸ htitles other hother)
    calc
      _ = part.registry.rows.map fun record => (record.reload host).shape :=
        hfollows.loaded.load_persist
      _ = (part.registry.rows.map WorkstreamRecord.shape).map fun record =>
          { record with lastTouchedThread := none } := by
        rw [List.map_map]
        exact List.map_congr_left hback
      _ = whole.registry.rows.map fun record =>
          (record.forget (whole.since whole.assigned.length)).shape := by
        rw [hfollows.rows, List.map_map]
        refine List.map_congr_left fun record _ => ?_
        have hnothing : whole.since whole.assigned.length = [] := by
          rw [Progress.since, List.drop_length, List.map_nil]
        rw [hnothing, Function.comp_apply, WorkstreamRecord.forget, WorkstreamRecord.forget,
          if_neg List.not_mem_nil]
        split <;> rfl
  · intro record hrecord hclosed
    obtain ⟨row, -, -, rfl⟩ := mem_loadRegistry.mp hrecord
    cases hclosed
  · rintro workstreamId ⟨row, hget, hother⟩
    exact hfollows.foreign workstreamId
      ⟨row, hfollows.loaded.scope_persist hget hother, hother⟩

/-- Batches that keep what a cut loses assign what the whole list is assigned. -/
theorem Follows.assignBatches {now : ℤ} {whole : Progress} {batches : List (List SignalledItem)}
    (hfollows : Follows host scope now whole.assigned.length whole
      ⟨database, database.loadRegistry host scope, []⟩)
    (hnow : ∀ offered ∈ batches.flatten, now ≤ offered.item.createdAt)
    (hordered : batches.flatten.Pairwise fun left right =>
      left.item.createdAt ≤ right.item.createdAt)
    (hkeeps : CutsKeep host scope whole batches)
    (hends : (Workstreams.assignItems host scope whole batches.flatten).2 = true) :
    whole.assigned ++ Workstreams.assignBatches host scope database batches =
      (Workstreams.assignItems host scope whole batches.flatten).1.assigned := by
  induction batches generalizing now whole database with
  | nil => exact List.append_nil _
  | cons batch rest ih =>
    obtain ⟨hbatch, htitles, hrest⟩ := hkeeps
    rw [List.flatten_cons] at hnow hordered hends ⊢
    obtain ⟨hbatchOrdered, hrestOrdered, hbetween⟩ := List.pairwise_append.mp hordered
    obtain ⟨hbatchEnds, hwhole⟩ := assignItems_append _ _ hends
    obtain ⟨hpartEnds, last, hlast, hleast, hended⟩ := hfollows.assignItems
      (fun offered hoffered => hnow offered (List.mem_append_left _ hoffered)) hbatchOrdered
      hbatch hbatchEnds
    rw [hwhole] at hends ⊢
    have hassigned : whole.assigned ++
        (Workstreams.assignItems host scope
          ⟨database, database.loadRegistry host scope, []⟩ batch).1.assigned =
        (Workstreams.assignItems host scope whole batch).1.assigned := by
      rw [hended.assigned]
      obtain ⟨added, hadded⟩ := assigned_prefix host scope whole batch
      rw [← hadded, List.drop_left]
    rw [Workstreams.assignBatches, ← List.append_assoc, assignBatch, hassigned]
    rcases htitles with rfl | htitles
    · exact List.append_nil _
    · rw [finishBatch, if_pos hpartEnds]
      refine ih (hended.reload htitles) (fun offered hoffered => ?_) hrestOrdered hrest hends
      exact hleast offered.item.createdAt
        (fun other hother => hbetween other hother offered hoffered)
        (hnow offered (List.mem_append_right _ hoffered))

theorem follows_start (hfits : database.Fits) (now : ℤ) :
    Follows host scope now 0 ⟨database, database.loadRegistry host scope, []⟩
      ⟨database, database.loadRegistry host scope, []⟩ := by
  have hexpired : Expired now (database.loadRegistry host scope) := by
    intro record hrecord hclosed
    obtain ⟨row, -, -, rfl⟩ := mem_loadRegistry.mp hrecord
    cases hclosed
  refine ⟨rfl, Nat.zero_le _, List.map_congr_left fun record hrecord => ?_, hexpired, hexpired,
    fun _ hforeign => hforeign, loaded_start hfits⟩
  obtain ⟨row, -, -, rfl⟩ := mem_loadRegistry.mp hrecord
  rw [WorkstreamRecord.forget]
  split <;> rfl

/-- After any rebuilds, the batches of a list in order assign what the list as one batch
assigns if none of its items raises, no batch reaches back by recency, and no workstream has
more than three titles at a cut. -/
theorem batches_agree {stored : Table SourceItem} (rebuilds : List (Rebuild stored))
    (batches : List (List SignalledItem)) (hordered : batches.flatten.Pairwise assignmentOrder)
    (hkeeps : CutsKeep host scope
      ⟨Run.run (rebuildStep host) Database.empty rebuilds,
        (Run.run (rebuildStep host) Database.empty rebuilds).loadRegistry host scope, []⟩ batches)
    (hends : (assignBatch host scope batches.flatten
      (Run.run (rebuildStep host) Database.empty rebuilds)).2 = true) :
    BatchesAgree host scope (Run.run (rebuildStep host) Database.empty rebuilds) batches := by
  obtain ⟨now, hnow⟩ : ∃ now, ∀ offered ∈ batches.flatten, now ≤ offered.item.createdAt := by
    cases hitems : batches.flatten with
    | nil => exact ⟨0, fun _ hoffered => absurd hoffered List.not_mem_nil⟩
    | cons first rest =>
      rw [hitems] at hordered
      refine ⟨first.item.createdAt, fun offered hoffered => ?_⟩
      rcases List.mem_cons.mp hoffered with rfl | hmem
      · exact le_refl _
      · exact ((List.pairwise_cons.mp hordered).1 offered hmem).elim le_of_lt
          fun h => le_of_eq h.1
  have hfollows : Follows host scope now 0 ⟨_, _, []⟩ ⟨_, _, []⟩ :=
    follows_start (fits_run host rebuilds) now
  refine hfollows.assignBatches hnow (hordered.imp fun horder => ?_) hkeeps hends
  exact horder.elim le_of_lt fun h => le_of_eq h.1

/-- Two items with one symbol, in batches of their own. -/
theorem batches_agree_example :
    BatchesAgree exampleHost ⟨"repo:front", "private"⟩
      (Run.run (rebuildStep exampleHost) Database.empty [frontRebuild])
      [[frontItem "item-5" "thread-1" 1750000300000000 (symbolSignals {"PackageQueue"})],
        [frontItem "item-6" "thread-2" 1750000360000000 (symbolSignals {"PackageQueue"})]] :=
  batches_agree [frontRebuild]
    [[frontItem "item-5" "thread-1" 1750000300000000 (symbolSignals {"PackageQueue"})],
      [frontItem "item-6" "thread-2" 1750000360000000 (symbolSignals {"PackageQueue"})]]
    (by decide +kernel) (by decide +kernel) (by decide +kernel)

/-- The first of the cuts separates a reply from the item it follows in its thread, the second
an item from the fourth title that it shares, and the third an item from one that raises.  At
the fourth, another project holds the id of the opened workstream. -/
theorem cut_changes_assignments :
    ¬ BatchesAgree exampleHost ⟨"repo:front", "private"⟩ Database.empty
        [[frontItem "item-1" "thread-1" 1750000000000000 (symbolSignals {"PackageQueue"})],
          [frontItem "item-2" "thread-1" 1750000060000000 (symbolSignals ∅)]] ∧
      ¬ BatchesAgree exampleHost ⟨"repo:front", "private"⟩ Database.empty
        [[frontItem "item-1" "thread-1" 1750000000000000 (titleSignals {"alpha plan draft",
            "beta plan draft", "gamma plan draft", "omega rollout notes"})],
          [frontItem "item-2" "thread-2" 1750000060000000
            (titleSignals {"omega rollout notes"})]] ∧
      ¬ BatchesAgree exampleHost ⟨"repo:front", "private"⟩ Database.empty
        [[frontItem "item-1" "thread-1" 1750000000000000 ⟨∅, ∅, ∅, {"make test"}, ∅, ∅⟩],
          [frontItem "item-2" "thread-2" 1750000060000000 (symbolSignals {"PackageQueue"})]] ∧
      ¬ BatchesAgree exampleHost ⟨"repo:front", "private"⟩
        (Run.run (rebuildStep exampleHost) Database.empty [backRebuild])
        [[frontItem "item-3" "thread-1" 1750000120000000 (symbolSignals {"PackageQueue"})],
          [frontItem "item-4" "thread-2" 1750000180000000 (symbolSignals {"PackageQueue"})]] := by
  decide +kernel

end Batches

end Pallium.Workstreams
