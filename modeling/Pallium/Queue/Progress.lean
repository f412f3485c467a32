import Mathlib.Data.Prod.Lex
import Mathlib.Data.String.Basic
import Pallium.Core.Backlog
import Pallium.Queue.StatusAgreement

/-!
# Progress of the processing queue

Workers claim one entry after the other, from some time on and with no other
operation in between.  A task that is pending or processing advances: after
finitely many claims of tasks ahead of it, it is claimed itself or its expired
lease is finalized.  The claim of items finalizes nothing, so an item without tasks
advances only while it has attempts left.
-/

namespace Pallium.Queue

open Pallium.Backlog Pallium.Run
open PackageProcessingStatusRecord (eligible expiredAtLimit terminal)

variable {σ : Type} {maxAttempts : ℕ} {store before after : QueueStore σ}

/-- A worker's claim at some clock reading. -/
structure Claimant where
  workerId : String
  leaseSeconds : ℤ
  now : ℤ

def taskFor (maxAttempts : ℕ) (store : QueueStore σ) (claimant : Claimant) :
    Option PackageProcessingStatusRecord :=
  (store.finalizeExpired claimant.now maxAttempts).nextTask (fun _ => true) maxAttempts
    claimant.now

def claimTaskBy (maxAttempts : ℕ) (store : QueueStore σ) (claimant : Claimant) : QueueStore σ :=
  (claimNextPackageTask claimant.workerId claimant.leaseSeconds maxAttempts claimant.now store).1

def itemFor (maxAttempts : ℕ) (store : QueueStore σ) (claimant : Claimant) :
    Option SourceItemRecord :=
  store.nextItem maxAttempts claimant.now

def claimItemBy (maxAttempts : ℕ) (store : QueueStore σ) (claimant : Claimant) : QueueStore σ :=
  (claimNextSourceItem claimant.workerId claimant.leaseSeconds maxAttempts claimant.now store).1

def TaskAhead (other task : PackageProcessingStatusRecord) : Prop :=
  taskOrder other task ∧ key other ≠ key task

def ItemAhead (other item : SourceItemRecord) : Prop :=
  itemOrder other item ∧ other.id ≠ item.id

/-- From some time on, finitely many claims of tasks ahead are followed by one
that claims the task or makes it final. -/
def TaskAdvances (maxAttempts : ℕ) (store : QueueStore σ) (task : PackageProcessingStatusRecord) :
    Prop :=
  ∃ start : ℤ, ∀ callers : ℕ → Claimant, (∀ index, start ≤ (callers index).now) →
    ∃ count, (∀ earlier < count, ∃ other,
        taskFor maxAttempts (afterTakes (claimTaskBy maxAttempts) store callers earlier)
          (callers earlier) = some other ∧ TaskAhead other task) ∧
      ∃ changed, (afterTakes (claimTaskBy maxAttempts) store callers (count + 1)).tasks.get
          (key task) = some changed ∧
        (changed = task.claim (callers count).workerId (callers count).leaseSeconds
            (callers count).now ∨ changed.terminal)

/-- From some time on, finitely many claims of items ahead are followed by one
that claims the item or makes it final. -/
def ItemAdvances (maxAttempts : ℕ) (store : QueueStore σ) (item : SourceItemRecord) : Prop :=
  ∃ start : ℤ, ∀ callers : ℕ → Claimant, (∀ index, start ≤ (callers index).now) →
    ∃ count, (∀ earlier < count, ∃ other,
        itemFor maxAttempts (afterTakes (claimItemBy maxAttempts) store callers earlier)
          (callers earlier) = some other ∧ ItemAhead other item) ∧
      ∃ changed, (afterTakes (claimItemBy maxAttempts) store callers (count + 1)).sourceItems.get
          item.id = some changed ∧
        (changed = item.claim (callers count).workerId (callers count).leaseSeconds
            (callers count).now ∨
          changed.processingStatus ≠ .pending ∧ changed.processingStatus ≠ .processing)

section Order

theorem taskOrder_iff {first second : PackageProcessingStatusRecord} :
    taskOrder first second ↔
      toLex (first.sourceItemCreatedAt.getD first.createdAt,
          toLex (first.sourceItemId, first.packageName)) ≤
        toLex (second.sourceItemCreatedAt.getD second.createdAt,
          toLex (second.sourceItemId, second.packageName)) := by
  rw [Prod.Lex.toLex_le_toLex, Prod.Lex.toLex_le_toLex]
  rfl

instance : IsTrans PackageProcessingStatusRecord taskOrder where
  trans _ _ _ hfirst hsecond :=
    taskOrder_iff.mpr ((taskOrder_iff.mp hfirst).trans (taskOrder_iff.mp hsecond))

instance : Std.Total taskOrder where
  total _ _ := (le_total _ _).imp taskOrder_iff.mpr taskOrder_iff.mpr

theorem itemOrder_iff {first second : SourceItemRecord} :
    itemOrder first second ↔
      toLex (first.createdAt, first.id) ≤ toLex (second.createdAt, second.id) := by
  rw [Prod.Lex.toLex_le_toLex]
  rfl

instance : IsTrans SourceItemRecord itemOrder where
  trans _ _ _ hfirst hsecond :=
    itemOrder_iff.mpr ((itemOrder_iff.mp hfirst).trans (itemOrder_iff.mp hsecond))

instance : Std.Total itemOrder where
  total _ _ := (le_total _ _).imp itemOrder_iff.mpr itemOrder_iff.mpr

theorem first_of_mem {α : Type} {order : α → α → Prop} [DecidableRel order] [Std.Total order]
    [IsTrans α order] {entries : List α} {entry : α} (hmem : entry ∈ entries) :
    ∃ first, (entries.insertionSort order).head? = some first ∧ order first entry := by
  have hsorted := List.pairwise_insertionSort order entries
  have hentry := (List.mem_insertionSort order).mpr hmem
  obtain ⟨first, rest, hlist⟩ := List.exists_cons_of_ne_nil (List.ne_nil_of_mem hentry)
  rw [hlist] at hsorted hentry ⊢
  refine ⟨first, rfl, ?_⟩
  rcases List.mem_cons.mp hentry with rfl | hrest
  · exact (Std.Total.total entry entry).elim id id
  · exact (List.pairwise_cons.mp hsorted).1 entry hrest

end Order

section Ranks

theorem sum_modify_lt {α κ : Type} [DecidableEq κ] [Keyed α κ] {table : Table α} {row : α}
    {change : α → α} (measure : α → ℕ) (hkey : ∀ other, key (change other) = key other)
    (hget : table.get (key row) = some row) (hlower : measure (change row) < measure row) :
    ((table.modify (key row) change).rows.map measure).sum < (table.rows.map measure).sum := by
  have hchange : ∀ other ∈ table.rows, key other = key row → other = row := by
    intro other hmem hsame
    have hother := Table.get_of_mem hmem
    rw [hsame, hget] at hother
    exact (Option.some.inj hother).symm
  rw [Table.modify, Table.rows_updateAll, List.map_map]
  · apply List.sum_lt_sum
    · intro other hmem
      rw [Function.comp_apply]
      split
      · next hsame =>
          rw [hchange other hmem hsame]
          exact hlower.le
      · exact le_refl _
    · refine ⟨row, Table.mem_of_get hget, ?_⟩
      rw [Function.comp_apply, if_pos rfl]
      exact hlower
  · intro other
    split
    · exact hkey other
    · rfl

/-- The number of claims that the tasks have left. -/
def taskRank (maxAttempts : ℕ) (store : QueueStore σ) : ℕ :=
  (store.tasks.rows.map fun record => maxAttempts - record.attempts).sum

/-- The number of claims that the items have left. -/
def itemRank (maxAttempts : ℕ) (store : QueueStore σ) : ℕ :=
  (store.sourceItems.rows.map fun item => maxAttempts - item.processingAttempts).sum

theorem lt_of_eligible {record : PackageProcessingStatusRecord} {now : ℤ}
    (heligible : record.eligible now maxAttempts) : record.attempts < maxAttempts := by
  rw [eligible, Bool.and_eq_true, decide_eq_true_iff] at heligible
  exact heligible.1

theorem SourceItemRecord.lt_of_eligible {item : SourceItemRecord} {now : ℤ}
    (heligible : item.eligible now maxAttempts) :
    item.useCase.isSome ∧ item.processingAttempts < maxAttempts := by
  rw [SourceItemRecord.eligible, Bool.and_eq_true, Bool.and_eq_true,
    decide_eq_true_iff] at heligible
  exact heligible.1

theorem taskRank_finalizeExpired_eq (store : QueueStore σ) (now : ℤ) :
    taskRank maxAttempts (store.finalizeExpired now maxAttempts) = taskRank maxAttempts store := by
  have htasks := (@fold_frame _ now ((store.tasks.rows.filter
    (expiredAtLimit now maxAttempts)).map
      PackageProcessingStatusRecord.sourceItemId).dedup
    { store with
      tasks := store.tasks.updateAll fun record =>
        if record.expiredAtLimit now maxAttempts then record.finalize now else record }).1
  unfold taskRank QueueStore.finalizeExpired
  simp only
  rw [htasks, Table.rows_updateAll, List.map_map]
  · congr 1
    apply List.map_congr_left
    intro record hmem
    rw [Function.comp_apply]
    split
    · rfl
    · rfl
  · intro record
    split
    · rfl
    · rfl

end Ranks

section Tasks

theorem claimTaskBy_eq (store : QueueStore σ) (claimant : Claimant) :
    claimTaskBy maxAttempts store claimant =
      match taskFor maxAttempts store claimant with
      | none => store.finalizeExpired claimant.now maxAttempts
      | some task =>
        { store.finalizeExpired claimant.now maxAttempts with
          tasks := (store.finalizeExpired claimant.now maxAttempts).tasks.modify (key task)
            (PackageProcessingStatusRecord.claim claimant.workerId claimant.leaseSeconds
              claimant.now) } := by
  rw [claimTaskBy, store_claimNextPackageTask, claimTask, taskFor]
  simp only
  cases (store.finalizeExpired claimant.now maxAttempts).nextTask (fun _ => true) maxAttempts
      claimant.now with
  | none => rfl
  | some task => rfl

variable {claimant : Claimant}

theorem get_claimTaskBy_of_kept {task changed : PackageProcessingStatusRecord}
    (hfinalized : (store.finalizeExpired claimant.now maxAttempts).tasks.get (key task) =
      some changed)
    (hother : ∀ other, taskFor maxAttempts store claimant = some other → key other ≠ key task) :
    (claimTaskBy maxAttempts store claimant).tasks.get (key task) = some changed := by
  rw [claimTaskBy_eq]
  split
  · exact hfinalized
  · next other hnext =>
      refine (Table.get_modify_of_ne _ ?_ (hother other hnext).symm).trans hfinalized
      exact fun row => rfl

section

variable {task : PackageProcessingStatusRecord}

theorem get_claimTaskBy (hnext : taskFor maxAttempts store claimant = some task) :
    (claimTaskBy maxAttempts store claimant).tasks.get (key task) =
      some (task.claim claimant.workerId claimant.leaseSeconds claimant.now) := by
  obtain ⟨hget, -⟩ := nextTask_eq_some hnext
  rw [claimTaskBy_eq, hnext]
  refine (Table.get_modify_self _ _ ?_).trans (congrArg (Option.map _) hget)
  exact fun row => rfl

/-- A task that no claim has touched and that every claim from some time on can take. -/
def TaskReady (maxAttempts : ℕ) (start : ℤ) (store : QueueStore σ)
    (task : PackageProcessingStatusRecord) : Prop :=
  store.tasks.get (key task) = some task ∧ ∀ now, start ≤ now → task.eligible now maxAttempts

theorem get_finalizeExpired_of_not {now : ℤ}
    (hget : store.tasks.get (key task) = some task)
    (hkept : task.expiredAtLimit now maxAttempts = false) :
    (store.finalizeExpired now maxAttempts).tasks.get (key task) = some task := by
  rw [get_finalizeExpired, hget, Option.map_some, hkept]
  rfl

theorem not_expired_of_eligible {now now' : ℤ}
    (heligible : task.eligible now maxAttempts) : task.expiredAtLimit now' maxAttempts = false := by
  have hless := lt_of_eligible heligible
  rw [expiredAtLimit, decide_eq_false (by omega), Bool.and_false,
    Bool.false_and]

/-- A claim takes a ready task, or one ahead of it and leaves it ready. -/
theorem taskReady_step {start : ℤ}
    (hnow : start ≤ claimant.now) (hready : TaskReady maxAttempts start store task) :
    taskFor maxAttempts store claimant = some task ∨
      ∃ other, taskFor maxAttempts store claimant = some other ∧ TaskAhead other task ∧
        TaskReady maxAttempts start (claimTaskBy maxAttempts store claimant) task ∧
        taskRank maxAttempts (claimTaskBy maxAttempts store claimant) <
          taskRank maxAttempts store := by
  obtain ⟨hget, heligible⟩ := hready
  have hfinalized : (store.finalizeExpired claimant.now maxAttempts).tasks.get (key task) =
      some task := get_finalizeExpired_of_not hget (not_expired_of_eligible (heligible _ hnow))
  have hmem : task ∈ (store.finalizeExpired claimant.now maxAttempts).tasks.rows.filter
      fun record => true && record.eligible claimant.now maxAttempts :=
    List.mem_filter.mpr ⟨Table.mem_of_get hfinalized, heligible _ hnow⟩
  obtain ⟨other, hfirst, hahead⟩ := @first_of_mem _ taskOrder _ _ _ _ _ hmem
  have hnext : taskFor maxAttempts store claimant = some other := hfirst
  obtain ⟨hother, hturn⟩ := nextTask_eq_some hnext
  by_cases hkey : key other = key task
  · left
    rw [hkey, hfinalized] at hother
    rw [Option.some.inj hother]
    exact hnext
  · right
    refine ⟨other, hnext, ⟨hahead, hkey⟩, ⟨?_, heligible⟩, ?_⟩
    · apply get_claimTaskBy_of_kept hfinalized
      intro found hfound
      rw [hnext] at hfound
      rw [← Option.some.inj hfound]
      exact hkey
    · rw [← taskRank_finalizeExpired_eq store claimant.now, claimTaskBy_eq, hnext]
      apply sum_modify_lt
      · exact fun row => rfl
      · exact hother
      · have hless := lt_of_eligible hturn
        change maxAttempts - (other.attempts + 1) < maxAttempts - other.attempts
        omega

end

variable {task : PackageProcessingStatusRecord}

theorem TaskReady.advances {start : ℤ}
    (hready : TaskReady maxAttempts start store task) : TaskAdvances maxAttempts store task := by
  refine ⟨start, fun callers hcallers => ?_⟩
  obtain ⟨count, hahead, hserved⟩ := served_of_ready (fun claimant : Claimant => start ≤ claimant.now)
    (fun _ _ _ hnow hstill => taskReady_step hnow hstill) hready hcallers
  exact ⟨count, hahead, _, get_claimTaskBy hserved, Or.inl rfl⟩

theorem taskAdvances_of_expired {start : ℤ} (hget : store.tasks.get (key task) = some task)
    (hexpired : ∀ now, start ≤ now → task.expiredAtLimit now maxAttempts) :
    TaskAdvances maxAttempts store task := by
  refine ⟨start, fun callers hcallers => ⟨0, ?_, task.finalize (callers 0).now, ?_, Or.inr rfl⟩⟩
  · exact fun earlier hearlier => absurd hearlier (Nat.not_lt_zero earlier)
  · have hfinal : (store.finalizeExpired (callers 0).now maxAttempts).tasks.get (key task) =
        some (task.finalize (callers 0).now) := by
      rw [get_finalizeExpired, hget, Option.map_some, if_pos (hexpired _ (hcallers 0))]
    apply get_claimTaskBy_of_kept hfinal
    intro other hnext hsame
    obtain ⟨hother, hturn⟩ := nextTask_eq_some hnext
    rw [hsame, hfinal] at hother
    rw [← Option.some.inj hother] at hturn
    simp [eligible, PackageProcessingStatusRecord.finalize] at hturn

theorem not_taskAdvances
    (hget : store.tasks.get (key task) = some task) (hpending : task.status = .pending) :
    ¬ TaskAdvances 0 store task := by
  rintro ⟨start, hadvances⟩
  let callers : ℕ → Claimant := fun _ => ⟨"", 0, start⟩
  obtain ⟨count, -, changed, hchanged, hclaimed⟩ := hadvances callers fun _ => le_refl start
  let kept : QueueStore σ → Prop := fun state => state.tasks.get (key task) = some task
  have hstep : ∀ state claimant, kept state → kept (claimTaskBy 0 state claimant) := by
    intro state claimant hkept
    apply get_claimTaskBy_of_kept
    · apply get_finalizeExpired_of_not hkept
      rw [expiredAtLimit, hpending]
      rfl
    · intro other hnext
      exact absurd (lt_of_eligible (nextTask_eq_some hnext).2) (Nat.not_lt_zero _)
  have hstart : kept store := hget
  have hstill := afterTakes_invariant hstart hstep callers (count + 1)
  rw [hstill] at hchanged
  cases hchanged
  rcases hclaimed with hclaim | hterminal
  · have hstatus := congrArg PackageProcessingStatusRecord.status hclaim
    rw [hpending] at hstatus
    cases hstatus
  · rw [terminal, hpending] at hterminal
    cases hterminal

end Tasks

section Items

/-- An item that no claim has touched and that every claim from some time on can take. -/
def ItemReady (maxAttempts : ℕ) (start : ℤ) (store : QueueStore σ) (item : SourceItemRecord) :
    Prop :=
  store.sourceItems.get item.id = some item ∧ store.unfinished item.id = false ∧
    ∀ now, start ≤ now → item.eligible now maxAttempts

theorem claimItemBy_eq (store : QueueStore σ) (claimant : Claimant) :
    claimItemBy maxAttempts store claimant =
      match itemFor maxAttempts store claimant with
      | none => store
      | some item =>
        { store with
          sourceItems := store.sourceItems.modify item.id
            (SourceItemRecord.claim claimant.workerId claimant.leaseSeconds claimant.now) } := by
  rw [claimItemBy, claimNextSourceItem, itemFor]
  cases store.nextItem maxAttempts claimant.now with
  | none => rfl
  | some item => rfl

theorem tasks_claimItemBy_eq (store : QueueStore σ) (claimant : Claimant) :
    (claimItemBy maxAttempts store claimant).tasks = store.tasks := by
  rw [claimItemBy_eq]
  split
  · rfl
  · rfl

variable {item : SourceItemRecord} {claimant : Claimant}

theorem get_claimItemBy_of_kept (hget : store.sourceItems.get item.id = some item)
    (hother : ∀ other, itemFor maxAttempts store claimant = some other → other.id ≠ item.id) :
    (claimItemBy maxAttempts store claimant).sourceItems.get item.id = some item := by
  rw [claimItemBy_eq]
  split
  · exact hget
  · next other hnext =>
      refine (Table.get_modify_of_ne _ ?_ (hother other hnext).symm).trans hget
      exact fun row => rfl

theorem get_claimItemBy (hnext : itemFor maxAttempts store claimant = some item) :
    (claimItemBy maxAttempts store claimant).sourceItems.get item.id =
      some (item.claim claimant.workerId claimant.leaseSeconds claimant.now) := by
  obtain ⟨hget, -⟩ := nextItem_eq_some hnext
  rw [claimItemBy_eq, hnext]
  refine (Table.get_modify_self _ _ ?_).trans (congrArg (Option.map _) hget)
  exact fun row => rfl

/-- A claim takes a ready item, or one ahead of it and leaves it ready. -/
theorem itemReady_step {start : ℤ}
    (hnow : start ≤ claimant.now) (hready : ItemReady maxAttempts start store item) :
    itemFor maxAttempts store claimant = some item ∨
      ∃ other, itemFor maxAttempts store claimant = some other ∧ ItemAhead other item ∧
        ItemReady maxAttempts start (claimItemBy maxAttempts store claimant) item ∧
        itemRank maxAttempts (claimItemBy maxAttempts store claimant) <
          itemRank maxAttempts store := by
  obtain ⟨hget, hfinished, heligible⟩ := hready
  have hmem : item ∈ store.sourceItems.rows.filter fun other =>
      other.eligible claimant.now maxAttempts && !store.unfinished other.id := by
    rw [List.mem_filter, heligible _ hnow, hfinished]
    exact ⟨Table.mem_of_get hget, rfl⟩
  obtain ⟨other, hfirst, hahead⟩ := @first_of_mem _ itemOrder _ _ _ _ _ hmem
  have hnext : itemFor maxAttempts store claimant = some other := hfirst
  obtain ⟨hother, hturn, -⟩ := nextItem_eq_some hnext
  by_cases hid : other.id = item.id
  · left
    rw [hid, hget] at hother
    rw [Option.some.inj hother]
    exact hnext
  · right
    refine ⟨other, hnext, ⟨hahead, hid⟩, ⟨?_, ?_, heligible⟩, ?_⟩
    · apply get_claimItemBy_of_kept hget
      intro found hfound
      rw [hnext] at hfound
      rw [← Option.some.inj hfound]
      exact hid
    · rw [QueueStore.unfinished, QueueStore.tasksOf, tasks_claimItemBy_eq]
      exact hfinished
    · rw [claimItemBy_eq, hnext]
      apply sum_modify_lt
      · exact fun row => rfl
      · exact hother
      · have hless := (SourceItemRecord.lt_of_eligible hturn).2
        change maxAttempts - (other.processingAttempts + 1) <
          maxAttempts - other.processingAttempts
        omega

theorem ItemReady.advances {start : ℤ}
    (hready : ItemReady maxAttempts start store item) : ItemAdvances maxAttempts store item := by
  refine ⟨start, fun callers hcallers => ?_⟩
  obtain ⟨count, hahead, hserved⟩ := served_of_ready (fun claimant : Claimant => start ≤ claimant.now)
    (fun _ _ _ hnow hstill => itemReady_step hnow hstill) hready hcallers
  exact ⟨count, hahead, _, get_claimItemBy hserved, Or.inl rfl⟩

theorem not_itemAdvances (hget : store.sourceItems.get item.id = some item)
    (hstatus : item.processingStatus = .pending ∨ item.processingStatus = .processing)
    (hnever : ¬ (item.useCase.isSome ∧ item.processingAttempts < maxAttempts)) :
    ¬ ItemAdvances maxAttempts store item := by
  rintro ⟨start, hadvances⟩
  let callers : ℕ → Claimant := fun _ => ⟨"", 0, start⟩
  obtain ⟨count, -, changed, hchanged, hclaimed⟩ := hadvances callers fun _ => le_refl start
  let kept : QueueStore σ → Prop := fun state => state.sourceItems.get item.id = some item
  have hstep : ∀ state claimant, kept state → kept (claimItemBy maxAttempts state claimant) := by
    intro state claimant hkept
    apply get_claimItemBy_of_kept hkept
    intro other hnext hid
    obtain ⟨hother, hturn, -⟩ := nextItem_eq_some hnext
    rw [hid] at hother
    rw [Option.eq_some_unique hother hkept] at hturn
    exact hnever (SourceItemRecord.lt_of_eligible hturn)
  have hstart : kept store := hget
  have hstill := afterTakes_invariant hstart hstep callers (count + 1)
  rw [hstill] at hchanged
  cases hchanged
  rcases hclaimed with hclaim | ⟨hpending, hprocessing⟩
  · have hattempts : item.processingAttempts = item.processingAttempts + 1 :=
      congrArg SourceItemRecord.processingAttempts hclaim
    omega
  · exact hstatus.elim hpending hprocessing

end Items

section Invariant

/-- A pending task has attempts left, and a processing one has a lease. -/
structure TaskSteady (maxAttempts : ℕ) (record : PackageProcessingStatusRecord) : Prop where
  pending : record.status = .pending → record.attempts < maxAttempts ∨ maxAttempts = 0
  processing : record.status = .processing → record.leaseExpiresAt.isSome ∧ 0 < maxAttempts

/-- A processing item has a lease. -/
def ItemSteady (item : SourceItemRecord) : Prop :=
  item.processingStatus = .processing → item.processingLeaseExpiresAt.isSome

structure ProgressInvariant (maxAttempts : ℕ) (store : QueueStore σ) : Prop where
  tasks : ∀ task record, store.tasks.get task = some record → TaskSteady maxAttempts record
  items : ∀ sourceItemId item, store.sourceItems.get sourceItemId = some item → ItemSteady item

theorem TaskSteady.of_terminal {record : PackageProcessingStatusRecord}
    (hterminal : record.terminal) : TaskSteady maxAttempts record where
  pending hstatus := by
    rw [terminal, hstatus] at hterminal
    cases hterminal
  processing hstatus := by
    rw [terminal, hstatus] at hterminal
    cases hterminal

theorem forall_updateAll {α κ : Type} [DecidableEq κ] [Keyed α κ] {table : Table α}
    {change : α → α} {property : α → Prop} (hkey : ∀ row, key (change row) = key row)
    (hchange : ∀ k row, table.get k = some row → property (change row)) :
    ∀ k row, (table.updateAll change).get k = some row → property row := by
  intro k changed hget
  rw [Table.get_updateAll _ hkey] at hget
  obtain ⟨row, hrow, rfl⟩ := Option.map_eq_some_iff.mp hget
  exact hchange k row hrow

theorem forall_modify {α κ : Type} [DecidableEq κ] [Keyed α κ] {table : Table α}
    {change : α → α} {property : α → Prop} {changedKey : κ}
    (hkey : ∀ row, key (change row) = key row)
    (hold : ∀ k row, table.get k = some row → property row)
    (hchange : ∀ row, table.get changedKey = some row → property (change row)) :
    ∀ k row, (table.modify changedKey change).get k = some row → property row := by
  intro k changed hget
  rw [Table.get_modify _ _ hkey] at hget
  split at hget
  · next hk =>
      obtain ⟨row, hrow, rfl⟩ := Option.map_eq_some_iff.mp hget
      exact hchange row (hk ▸ hrow)
  · exact hold k changed hget

theorem ProgressInvariant.sync (hinvariant : ProgressInvariant maxAttempts store)
    (sourceItemId : String) (now : ℤ) :
    ProgressInvariant maxAttempts (store.syncSourceItem sourceItemId now) := by
  unfold QueueStore.syncSourceItem
  simp only
  split
  · exact hinvariant
  · refine ⟨hinvariant.tasks, ?_⟩
    apply forall_modify
    · exact fun row => rfl
    · exact hinvariant.items
    · intro item hget hprocessing
      split at hprocessing
      · cases hprocessing
      · cases hprocessing

theorem ProgressInvariant.fold (sourceItemIds : List String) (now : ℤ)
    (hinvariant : ProgressInvariant maxAttempts store) :
    ProgressInvariant maxAttempts (sourceItemIds.foldl
      (fun synced sourceItemId => synced.syncSourceItem sourceItemId now) store) := by
  induction sourceItemIds generalizing store with
  | nil => exact hinvariant
  | cons sourceItemId rest ih =>
    rw [List.foldl_cons]
    exact ih (hinvariant.sync sourceItemId now)

theorem Move.progressInvariant (hmove : Move maxAttempts before after)
    (hinvariant : ProgressInvariant maxAttempts before) :
    ProgressInvariant maxAttempts after := by
  cases hmove with
  | rest rest => exact ⟨hinvariant.tasks, hinvariant.items⟩
  | ingested hinsert hadd _ _ _ hidle =>
    refine ⟨fun task record hget => ?_, fun sourceItemId item hget => ?_⟩
    · rcases addPackageTasks_cases hadd task with hkept | ⟨-, found, hfound, -, hzero, hstatus⟩
      · exact hinvariant.tasks task record (hkept ▸ hget)
      · obtain rfl := Option.eq_some_unique hfound hget
        constructor
        · intro _
          omega
        · intro hprocessing
          rcases hstatus with hskipped | ⟨hpending, -⟩
          · cases hskipped.symm.trans hprocessing
          · cases hpending.symm.trans hprocessing
    · have hitem := (Table.get_insertNew hinsert sourceItemId).symm.trans hget
      split at hitem
      · intro hprocessing
        rw [← Option.some.inj hitem] at hprocessing
        exact absurd hprocessing hidle
      · exact hinvariant.items _ _ hitem
  | created hinsert hstatus _ =>
    refine ⟨hinvariant.tasks, fun sourceItemId item hget => ?_⟩
    have hitem := (Table.get_insertNew hinsert sourceItemId).symm.trans hget
    split at hitem
    · intro hprocessing
      rw [← Option.some.inj hitem, hstatus] at hprocessing
      cases hprocessing
    · exact hinvariant.items _ _ hitem
  | closed hkey hchange =>
    apply ProgressInvariant.fold
    refine ⟨?_, hinvariant.items⟩
    refine @forall_updateAll _ _ _ _ before.tasks _ (TaskSteady maxAttempts) hkey ?_
    intro task record hget
    rcases hchange task record hget with hsame | ⟨hclosed, -⟩
    · rw [hsame]
      exact hinvariant.tasks task record hget
    · exact .of_terminal hclosed.terminal
  | claimed hget heligible =>
    refine ⟨?_, hinvariant.items⟩
    apply forall_modify
    · exact fun row => rfl
    · exact hinvariant.tasks
    · intro row _
      have hless := lt_of_eligible heligible
      exact ⟨fun hstatus => (by cases hstatus), fun _ => ⟨rfl, by omega⟩⟩
  | retried hget hheld hattempts =>
    refine ⟨?_, hinvariant.items⟩
    apply forall_modify
    · exact fun row => rfl
    · exact hinvariant.tasks
    · intro row hrow
      rw [hget] at hrow
      rw [← Option.some.inj hrow]
      exact ⟨fun _ => Or.inl hattempts, fun hstatus => by cases hstatus⟩
  | requeued hretryable =>
    constructor
    · apply forall_updateAll
      · intro row
        split
        · rfl
        · rfl
      · intro task record hget
        split
        · refine ⟨fun _ => ?_, fun hstatus => by cases hstatus⟩
          change 0 < maxAttempts ∨ maxAttempts = 0
          omega
        · exact hinvariant.tasks task record hget
    · apply forall_modify
      · exact fun row => rfl
      · exact hinvariant.items
      · exact fun _ _ hstatus => by cases hstatus
  | itemClaimed hget heligible hfinished =>
    refine ⟨hinvariant.tasks, ?_⟩
    apply forall_modify
    · exact fun row => rfl
    · exact hinvariant.items
    · exact fun _ _ _ => rfl
  | itemConcluded hget hid hconcluded =>
    refine ⟨hinvariant.tasks, ?_⟩
    apply forall_modify
    · exact hid
    · exact hinvariant.items
    · intro row hrow hprocessing
      rw [hget] at hrow
      rw [← Option.some.inj hrow] at hprocessing
      rcases hconcluded.status with hstatus | hstatus | ⟨hstatus, -⟩
      · cases hstatus.symm.trans hprocessing
      · cases hstatus.symm.trans hprocessing
      · cases hstatus.symm.trans hprocessing
  | itemsCancelled packageNames now =>
    refine ⟨hinvariant.tasks, ?_⟩
    apply forall_updateAll
    · intro row
      split
      · rfl
      · rfl
    · intro sourceItemId item hget
      split
      · intro hstatus
        cases hstatus
      · exact hinvariant.items sourceItemId item hget
  | noted sourceItemId failureCategory =>
    refine ⟨hinvariant.tasks, ?_⟩
    apply forall_modify
    · exact fun row => rfl
    · exact hinvariant.items
    · exact fun item hget => hinvariant.items _ item hget

theorem processed_progressInvariant (maxAttempts : ℕ) (rest : σ) (ops : List (ProcessingOp σ)) :
    ProgressInvariant maxAttempts (processed maxAttempts rest ops) :=
  processed_invariant ⟨fun _ _ hget => (nomatch hget), fun _ _ hget => (nomatch hget)⟩
    (fun _ _ hmove hinvariant => hmove.progressInvariant hinvariant) ops

end Invariant

section Progress

theorem taskAdvances_of_steady {task : PackageProcessingStatusRecord}
    (hget : store.tasks.get (key task) = some task) (hsteady : TaskSteady maxAttempts task)
    (hattempts : 0 < maxAttempts) (hstatus : task.status = .pending ∨ task.status = .processing) :
    TaskAdvances maxAttempts store task := by
  rcases hstatus with hpending | hprocessing
  · have hless : task.attempts < maxAttempts := (hsteady.pending hpending).resolve_right (by omega)
    apply @TaskReady.advances _ _ _ _ (task.nextAttemptAt.getD 0)
    refine ⟨hget, fun now hnow => ?_⟩
    rw [eligible, decide_eq_true hless, Bool.true_and, hpending]
    cases hnext : task.nextAttemptAt with
    | none => rfl
    | some retry =>
      rw [hnext] at hnow
      exact decide_eq_true hnow
  · obtain ⟨lease, hlease⟩ := Option.isSome_iff_exists.mp (hsteady.processing hprocessing).1
    by_cases hless : task.attempts < maxAttempts
    · apply @TaskReady.advances _ _ _ _ lease
      refine ⟨hget, fun now hnow => ?_⟩
      rw [eligible, decide_eq_true hless, Bool.true_and,
        hprocessing, hlease]
      exact decide_eq_true hnow
    · apply @taskAdvances_of_expired _ _ _ _ lease hget
      intro now hnow
      rw [expiredAtLimit, hprocessing,
        decide_eq_true (Nat.le_of_not_lt hless), hlease]
      exact decide_eq_true hnow

theorem itemAdvances_of_steady {item : SourceItemRecord}
    (hget : store.sourceItems.get item.id = some item) (hsteady : ItemSteady item)
    (hnone : store.tasksOf item.id = [])
    (hstatus : item.processingStatus = .pending ∨ item.processingStatus = .processing)
    (hleft : item.useCase.isSome ∧ item.processingAttempts < maxAttempts) :
    ItemAdvances maxAttempts store item := by
  have hfinished : store.unfinished item.id = false := by
    rw [QueueStore.unfinished, hnone]
    rfl
  obtain ⟨huseCase, hless⟩ := hleft
  rcases hstatus with hpending | hprocessing
  · apply @ItemReady.advances _ _ _ _ (item.processingNextAttemptAt.getD 0)
    refine ⟨hget, hfinished, fun now hnow => ?_⟩
    rw [SourceItemRecord.eligible, huseCase, decide_eq_true hless, Bool.true_and, Bool.true_and,
      hpending]
    cases hnext : item.processingNextAttemptAt with
    | none => rfl
    | some retry =>
      rw [hnext] at hnow
      exact decide_eq_true hnow
  · obtain ⟨lease, hlease⟩ := Option.isSome_iff_exists.mp (hsteady hprocessing)
    apply @ItemReady.advances _ _ _ _ lease
    refine ⟨hget, hfinished, fun now hnow => ?_⟩
    rw [SourceItemRecord.eligible, huseCase, decide_eq_true hless, Bool.true_and, Bool.true_and,
      hprocessing, hlease]
    exact decide_eq_true hnow

/-- Which entries of the queue advance, in every run.  Every task that is pending
or processing does, as soon as attempts are allowed at all.  An item without tasks
does exactly if it has a use case and attempts left: an item whose worker stops on
the last attempt stays processing. -/
theorem queue_progress (maxAttempts : ℕ) (rest : σ) (ops : List (ProcessingOp σ)) :
    (∀ task, (processed maxAttempts rest ops).tasks.get (key task) = some task →
        (task.status = .pending ∨ task.status = .processing) →
        (TaskAdvances maxAttempts (processed maxAttempts rest ops) task ↔ 0 < maxAttempts)) ∧
      ∀ item, (processed maxAttempts rest ops).sourceItems.get item.id = some item →
        (processed maxAttempts rest ops).tasksOf item.id = [] →
        (item.processingStatus = .pending ∨ item.processingStatus = .processing) →
        (ItemAdvances maxAttempts (processed maxAttempts rest ops) item ↔
          item.useCase.isSome ∧ item.processingAttempts < maxAttempts) := by
  have hinvariant := processed_progressInvariant maxAttempts rest ops
  constructor
  · intro task hget hstatus
    have hsteady := hinvariant.tasks _ task hget
    constructor
    · intro hadvances
      rcases Nat.eq_zero_or_pos maxAttempts with rfl | hattempts
      · rcases hstatus with hpending | hprocessing
        · exact absurd hadvances (not_taskAdvances hget hpending)
        · exact (hsteady.processing hprocessing).2
      · exact hattempts
    · intro hattempts
      exact taskAdvances_of_steady hget hsteady hattempts hstatus
  · intro item hget hnone hstatus
    constructor
    · intro hadvances
      by_contra hnever
      exact not_itemAdvances hget hstatus hnever hadvances
    · intro hleft
      exact itemAdvances_of_steady hget (hinvariant.items _ item hget) hnone hstatus hleft

/-- One item is processed as a whole and one by a package. -/
def twoItems : List (ProcessingOp Unit) :=
  [.createItem "whole" 0 (some "notes"), .ingest "split" 1 none ["only"] (fun _ => false) none 1,
    .claimItem "worker" 60 2, .claimTask "worker" 60 3]

/-- With three attempts, a task and an item in processing advance. -/
theorem queue_progress_of_two_items :
    (∃ task, (processed 3 () twoItems).tasks.get ("split", "only") = some task ∧
        TaskAdvances 3 (processed 3 () twoItems) task) ∧
      ∃ item, (processed 3 () twoItems).sourceItems.get "whole" = some item ∧
        ItemAdvances 3 (processed 3 () twoItems) item := by
  obtain ⟨htasks, hitems⟩ := queue_progress 3 () twoItems
  constructor
  · have htask : ∃ task, (processed 3 () twoItems).tasks.get ("split", "only") = some task ∧
        key task = ("split", "only") ∧ task.status = .processing := by
      refine ⟨_, rfl, ?_⟩
      decide
    obtain ⟨task, hget, hkey, hstatus⟩ := htask
    have hstored : (processed 3 () twoItems).tasks.get (key task) = some task := by
      rw [hkey]
      exact hget
    exact ⟨task, hget, (htasks task hstored (Or.inr hstatus)).mpr (by decide)⟩
  · have hitem : ∃ item, (processed 3 () twoItems).sourceItems.get "whole" = some item ∧
        item.id = "whole" ∧ item.processingStatus = .processing ∧ item.useCase.isSome ∧
          item.processingAttempts < 3 := by
      refine ⟨_, rfl, ?_⟩
      decide
    obtain ⟨item, hget, hid, hstatus, hleft⟩ := hitem
    have hstored : (processed 3 () twoItems).sourceItems.get item.id = some item := by
      rw [hid]
      exact hget
    have hnone : (processed 3 () twoItems).tasksOf item.id = [] := by
      rw [hid]
      decide
    exact ⟨item, hget, (hitems item hstored hnone (Or.inr hstatus)).mpr hleft⟩

/-- The worker of an item stops on the only attempt. -/
theorem stopped_on_last_attempt :
    ∃ item, (processed 1 () twoItems).sourceItems.get "whole" = some item ∧
      (processed 1 () twoItems).tasksOf item.id = [] ∧ item.processingStatus = .processing ∧
        ¬ ItemAdvances 1 (processed 1 () twoItems) item := by
  have hitem : ∃ item, (processed 1 () twoItems).sourceItems.get "whole" = some item ∧
      item.id = "whole" ∧ item.processingStatus = .processing ∧ item.processingAttempts = 1 := by
    refine ⟨_, rfl, ?_⟩
    decide
  obtain ⟨item, hget, hid, hstatus, hattempts⟩ := hitem
  have hstored : (processed 1 () twoItems).sourceItems.get item.id = some item := by
    rw [hid]
    exact hget
  have hnone : (processed 1 () twoItems).tasksOf item.id = [] := by
    rw [hid]
    decide
  refine ⟨item, hget, hnone, hstatus, ?_⟩
  apply not_itemAdvances hstored (Or.inr hstatus)
  intro hleft
  rw [hattempts] at hleft
  exact absurd hleft.2 (by decide)

end Progress

end Pallium.Queue
