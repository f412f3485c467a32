import Pallium.Retention.Sweep

/-!
# Retention over all runs

Passes run one after the other while other writers change the store.  Whatever they do,
a pass deletes only items that are neither protected nor leased, leaves nothing behind
that refers to what it deletes, and ends.
-/

namespace Pallium.Retention

open Pallium.Memory (TargetKind RelationRecord)
open Pallium.Paging (Beyond)
open Pallium.Run

/-- A store with the pass that runs, and what passes have deleted and visited so far. -/
structure RetentionRun where
  store : RetentionStore
  pass : Option Pass
  deleted : List (TargetKind × String)
  visited : List String
  swept : Bool

def RetentionRun.fresh (store : RetentionStore) : RetentionRun := ⟨store, none, [], [], false⟩

/-- A pass begins or goes on, or another writer changes the store. -/
inductive RetentionOp
  | begin (arguments : PassArguments)
  | advance (clock : ℤ)
  | other (after : RetentionStore)

/-- The items and memories that are not stored any more. -/
def RetentionStore.lost (before after : RetentionStore) : List (TargetKind × String) :=
  (before.sourceItems.rows.map fun record => (TargetKind.sourceItem, record.id)).filter
      (fun target => decide ¬ after.Stored target.1 target.2) ++
    (before.memories.rows.map fun record => (TargetKind.memoryObject, record.id)).filter
      fun target => decide ¬ after.Stored target.1 target.2

namespace RetentionOp

open RetentionStore

/-- The run after a step; a scan that comes up empty completes a sweep. -/
def step (run : RetentionRun) : RetentionOp → RetentionRun
  | .begin arguments => { run with pass := some (Pass.start arguments) }
  | .other after => { run with store := after }
  | .advance clock =>
    match run.pass with
    | none => run
    | some pass =>
      let next := pass.advance clock run.store
      { store := next.1
        pass := some next.2
        deleted := run.deleted ++ run.store.lost next.1
        visited := run.visited ++ ((pass.commits clock run.store).elim [] Prepared.scannedIds)
        swept := run.swept ||
          (pass.commits clock run.store).any fun prepared => prepared.scanned.isEmpty }

def reached (store : RetentionStore) (ops : List RetentionOp) : RetentionRun :=
  Run.run step (RetentionRun.fresh store) ops

def isBegin : RetentionOp → Bool
  | .begin _ => true
  | _ => false

def isAdvance : RetentionOp → Bool
  | .advance _ => true
  | _ => false

/-- A transaction of a pass spares what is protected or leased, and leaves nothing behind. -/
def Sound (run : RetentionRun) : RetentionOp → Prop
  | .advance clock => ∀ pass ∈ run.pass,
      run.store.Erases (pass.advance clock run.store).1 ∧
        ∀ sourceItemId, run.store.Stored .sourceItem sourceItemId →
          ¬ (pass.advance clock run.store).1.Stored .sourceItem sourceItemId →
            ∀ time, pass.arguments.now ≤ time →
              ¬ run.store.Protected pass.arguments.policy time sourceItemId ∧
                ¬ run.store.Leased time sourceItemId
  | _ => True

/-- Other writers do not refer to what a pass has deleted. -/
def KeepsOut (run : RetentionRun) : RetentionOp → Prop
  | .other after => ∀ target ∈ run.deleted, after.Referenced target.1 target.2 →
      run.store.Referenced target.1 target.2
  | _ => True

/-- The item is terminal all the time, and other writers do not move the cursor. -/
def Throughout (sourceItemId : String) (position : ℤ ×ₗ String) (run : RetentionRun)
    (op : RetentionOp) : Prop :=
  run.store.TerminalAt sourceItemId position ∧
    match op with
    | .other after => after.cursor = run.store.cursor
    | _ => True

end RetentionOp

section Advance

open RetentionStore

/-- A transaction that deletes no items and does not move the cursor. -/
structure Quiet (before after : RetentionStore) : Prop where
  erases : before.Erases after
  cursor : after.cursor = before.cursor
  items : ∀ sourceItemId,
    after.Stored .sourceItem sourceItemId ↔ before.Stored .sourceItem sourceItemId

theorem Quiet.refl (store : RetentionStore) : Quiet store store :=
  ⟨Erases.refl store, rfl, fun _ => Iff.rfl⟩

theorem Quiet.of_forgets {before after : RetentionStore} (hforgets : before.Forgets after) :
    Quiet before after where
  erases := hforgets.erases
  cursor := by
    rw [RetentionStore.cursor, hforgets.keepsItems.maintenance, RetentionStore.cursor]
  items sourceItemId := by
    rw [Stored, hforgets.keepsItems.sourceItems]
    exact Iff.rfl

theorem quiet_renewRetentionLease {store renewed : RetentionStore} {lease : RetentionLease}
    {leaseSeconds now : ℤ}
    (hrenew : store.renewRetentionLease lease leaseSeconds now = .ok renewed) :
    Quiet store renewed := by
  unfold renewRetentionLease at hrenew
  split at hrenew
  · cases hrenew
  · next record hrecord =>
      split at hrenew
      · obtain rfl := (Except.ok.inj hrenew).symm
        refine ⟨Erases.of_same rfl rfl fun targetKind targetId => ?_, ?_, fun _ => Iff.rfl⟩
        · cases targetKind with
          | memoryObject => exact Iff.rfl
          | sourceItem => exact Iff.rfl
        · rw [cursor, cursor, hrecord]
          rfl
      · cases hrenew

/-- A transaction of a pass is quiet, or it commits a chunk of source items. -/
theorem advance_cases (pass : Pass) (clock : ℤ) (store : RetentionStore) :
    (∃ after stats prepared, pass.commits clock store = some prepared ∧
        store.commitSourceChunk pass.arguments.policy pass.arguments.now pass.arguments.lease
          (pass.arguments.leaseNow.getD clock) prepared = .ok (some (after, stats)) ∧
        (pass.advance clock store).1 = after ∧
        ∃ budget attempts, pass.stage = .committing budget attempts prepared) ∨
      pass.commits clock store = none ∧ Quiet store (pass.advance clock store).1 := by
  cases hstage : pass.stage with
  | committing scanBudget furtherAttempts prepared =>
    simp only [Pass.commits, Pass.advance, hstage]
    cases hcommit : store.commitSourceChunk pass.arguments.policy pass.arguments.now
        pass.arguments.lease (pass.arguments.leaseNow.getD clock) prepared with
    | error error => exact Or.inr ⟨rfl, Quiet.refl store⟩
    | ok outcome =>
      cases outcome with
      | none =>
        refine Or.inr ⟨rfl, ?_⟩
        cases furtherAttempts with
        | zero => exact Quiet.refl store
        | succ attempts => exact Quiet.refl store
      | some chunk =>
        exact Or.inl ⟨chunk.1, chunk.2, prepared, rfl, hcommit, rfl, scanBudget,
          furtherAttempts, rfl⟩
  | renewing loop =>
    simp only [Pass.commits, Pass.advance, hstage]
    refine Or.inr ⟨trivial, ?_⟩
    split
    · exact Quiet.refl store
    · split
      · next renewed hrenew => exact quiet_renewRetentionLease hrenew
      · exact Quiet.refl store
  | superseded =>
    simp only [Pass.commits, Pass.advance, hstage]
    exact Or.inr ⟨trivial, Quiet.of_forgets (forgets_runSupersededMemoryRetentionChunk _ _ _)⟩
  | working =>
    simp only [Pass.commits, Pass.advance, hstage]
    exact Or.inr ⟨trivial,
      Quiet.of_forgets (forgets_runStaleWorkingMemoryRetentionChunk _ _ _ _)⟩
  | preparing scanBudget furtherAttempts =>
    simp only [Pass.commits, Pass.advance, hstage]
    refine Or.inr ⟨trivial, ?_⟩
    split
    · exact Quiet.refl store
    · exact Quiet.refl store
  | stripping =>
    simp only [Pass.commits, Pass.advance, hstage]
    refine Or.inr ⟨trivial, erases_runDebugMetadataStrippingChunk _ _ _, rfl,
      fun sourceItemId => ?_⟩
    change (Table.get (List.foldl stripDebugMetadata store.sourceItems _) sourceItemId).isSome ↔
      (store.sourceItems.get sourceItemId).isSome
    rw [isSome_stripAll]
  | _ =>
    simp only [Pass.commits, Pass.advance, hstage]
    exact Or.inr ⟨trivial, Quiet.refl store⟩

theorem erases_advance (pass : Pass) (clock : ℤ) (store : RetentionStore) :
    store.Erases (pass.advance clock store).1 := by
  rcases advance_cases pass clock store with ⟨after, stats, prepared, -, hcommit, hafter, -⟩ |
    ⟨-, hquiet⟩
  · rw [hafter]
    exact erases_commitSourceChunk hcommit
  · exact hquiet.erases

end Advance

namespace RetentionOp

open RetentionStore

theorem sound_step (run : RetentionRun) (op : RetentionOp) : Sound run op := by
  cases op with
  | begin arguments => trivial
  | other after => trivial
  | advance clock =>
    intro pass _
    refine ⟨erases_advance pass clock run.store, fun sourceItemId hstored hgone time htime => ?_⟩
    rcases advance_cases pass clock run.store with
      ⟨after, stats, prepared, -, hcommit, hafter, -⟩ | ⟨-, hquiet⟩
    · rw [hafter] at hgone
      exact spared_of_eligible (eligible_of_commitSourceChunk hcommit hstored hgone) htime
    · exact absurd ((hquiet.items sourceItemId).mpr hstored) hgone

theorem isSome_get_iff {α : Type*} [Keyed α String] (table : Table α) (targetId : String) :
    (table.get targetId).isSome ↔ ∃ row ∈ table.rows, Keyed.key row = targetId := by
  rw [← List.mem_map, ← not_iff_not, Option.not_isSome_iff_eq_none, Table.get_eq_none_iff]

theorem mem_lost_iff {before after : RetentionStore} {target : TargetKind × String} :
    target ∈ before.lost after ↔
      before.Stored target.1 target.2 ∧ ¬ after.Stored target.1 target.2 := by
  obtain ⟨targetKind, targetId⟩ := target
  rw [lost, List.mem_append, List.mem_filter, List.mem_filter, decide_eq_true_eq]
  cases targetKind with
  | sourceItem =>
    have hstored : before.Stored .sourceItem targetId ↔ ∃ record ∈ before.sourceItems.rows,
        record.id = targetId := isSome_get_iff before.sourceItems targetId
    simp [hstored]
  | memoryObject =>
    have hstored : before.Stored .memoryObject targetId ↔ ∃ record ∈ before.memories.rows,
        record.id = targetId := isSome_get_iff before.memories targetId
    simp [hstored]

/-- Nothing refers to what passes have deleted. -/
def Unreferenced (run : RetentionRun) : Prop :=
  ∀ target ∈ run.deleted, ¬ run.store.Referenced target.1 target.2

theorem unreferenced_step (run : RetentionRun) (op : RetentionOp) (hkeeps : KeepsOut run op)
    (hunreferenced : Unreferenced run) : Unreferenced (step run op) := by
  cases op with
  | begin arguments => exact hunreferenced
  | other after =>
    exact fun target htarget hreferenced =>
      hunreferenced target htarget (hkeeps target htarget hreferenced)
  | advance clock =>
    cases hpass : run.pass with
    | none =>
      have hsame : step run (.advance clock) = run := by simp only [step, hpass]
      rw [hsame]
      exact hunreferenced
    | some pass =>
      have herases := erases_advance pass clock run.store
      have hstep : (step run (.advance clock)).store = (pass.advance clock run.store).1 ∧
          (step run (.advance clock)).deleted =
            run.deleted ++ run.store.lost (pass.advance clock run.store).1 := by
        simp only [step, hpass, and_self]
      intro target htarget
      rw [hstep.2, List.mem_append] at htarget
      rw [hstep.1]
      rcases htarget with hbefore | hnow
      · exact fun hreferenced =>
          hunreferenced target hbefore (herases.referenced _ _ hreferenced)
      · obtain ⟨hstored, hgone⟩ := mem_lost_iff.mp hnow
        exact herases.clean _ _ hstored hgone

end RetentionOp

section Termination

namespace Pass

/-- The most transactions that a pass has left. -/
def left (pass : Pass) : ℕ :=
  match pass.stage with
  | .renewing .superseded => 36 * pass.remaining + 14
  | .superseded => 36 * pass.remaining + 13
  | .renewing .working => 34 * pass.remaining + 12
  | .working => 34 * pass.remaining + 11
  | .renewing (.sources scanBudget) => 8 * scanBudget + 10
  | .preparing scanBudget furtherAttempts => 8 * scanBudget + 2 * furtherAttempts + 5
  | .committing scanBudget furtherAttempts _ => 8 * scanBudget + 2 * furtherAttempts + 4
  | .renewing .debug => 2
  | .stripping => 1
  | .finished => 0
  | .raised _ => 0

/-- The most transactions of a pass with the arguments. -/
def bound (arguments : PassArguments) : ℕ := 36 * arguments.batchSize.toNat + 14

theorem left_start (arguments : PassArguments) : (start arguments).left ≤ bound arguments := by
  unfold start left bound
  simp only
  split_ifs <;> simp

/-- The most transactions from the begin of a loop to the end of the pass. -/
def Loop.cost (remaining : ℕ) : Loop → ℕ
  | .superseded => 36 * remaining + 14
  | .working => 34 * remaining + 12
  | .sources scanBudget => if scanBudget = 0 then 2 else 8 * scanBudget + 10
  | .debug => 2

variable (pass : Pass)

theorem left_enter (loop : Loop) :
    ({ pass with stage := enter pass.remaining loop } : Pass).left = 0 ∨
      0 < pass.remaining ∧
        ({ pass with stage := enter pass.remaining loop } : Pass).left ≤
          Loop.cost pass.remaining loop := by
  unfold enter
  split
  · exact Or.inl rfl
  · next hpositive =>
      refine Or.inr ⟨Nat.pos_of_ne_zero hpositive, ?_⟩
      cases loop with
      | sources scanBudget =>
        cases scanBudget with
        | zero => exact Nat.le_refl _
        | succ budget =>
          rw [Loop.cost, if_neg (Nat.succ_ne_zero budget)]
          exact Nat.le_refl _
      | _ => exact Nat.le_refl _

theorem left_afterMemories (stats : RetentionRunStats) (loop next : Loop) :
    (pass.afterMemories stats loop next).left = 0 ∨
      (stats.deletedMemoryObjects = 0 ∧
        (pass.afterMemories stats loop next).left ≤ Loop.cost pass.remaining next) ∨
      ∃ remaining < pass.remaining,
        (pass.afterMemories stats loop next).left ≤ Loop.cost remaining loop := by
  have henter := left_enter
    { pass with
      remaining := pass.remaining - stats.deletedMemoryObjects
      stats := pass.stats.merge stats }
    (if stats.deletedMemoryObjects = 0 then next else loop)
  rcases henter with hzero | ⟨hpositive, hle⟩
  · exact Or.inl hzero
  · by_cases hdeleted : stats.deletedMemoryObjects = 0
    · refine Or.inr (Or.inl ⟨hdeleted, ?_⟩)
      rw [if_pos hdeleted, hdeleted, Nat.sub_zero] at hle
      refine Nat.le_trans (Nat.le_of_eq ?_) hle
      rw [afterMemories, hdeleted, Nat.sub_zero, if_pos rfl]
    · refine Or.inr (Or.inr ⟨pass.remaining - stats.deletedMemoryObjects, ?_, ?_⟩)
      · change 0 < pass.remaining - stats.deletedMemoryObjects at hpositive
        omega
      · rw [if_neg hdeleted] at hle
        refine Nat.le_trans (Nat.le_of_eq ?_) hle
        rw [afterMemories, if_neg hdeleted]

theorem left_afterSources (scanBudget scannedCount : ℕ) (stats : RetentionRunStats) :
    (pass.afterSources scanBudget stats scannedCount).left < 8 * scanBudget + 4 := by
  have henter := left_enter
    { pass with
      remaining := pass.remaining - stats.deletedSourceItems
      stats := pass.stats.merge stats }
    (if scannedCount = 0 then .debug else .sources (scanBudget - scannedCount))
  change (pass.afterSources scanBudget stats scannedCount).left = 0 ∨ 0 < _ ∧
    (pass.afterSources scanBudget stats scannedCount).left ≤ _ at henter
  rcases henter with hzero | ⟨-, hle⟩
  · omega
  · split at hle
    · rw [Loop.cost] at hle
      omega
    · rw [Loop.cost] at hle
      split at hle
      · omega
      · omega

theorem left_advance {pass : Pass} (clock : ℤ) (store : RetentionStore)
    (hrunning : pass.ended = false) : (pass.advance clock store).2.left < pass.left := by
  have hraised : ∀ error, ({ pass with stage := .raised error } : Pass).left = 0 := fun _ => rfl
  cases hstage : pass.stage with
  | finished => simp [ended, hstage] at hrunning
  | raised error => simp [ended, hstage] at hrunning
  | stripping =>
    simp only [advance, left, hstage]
    exact Nat.one_pos
  | renewing loop =>
    have hbegin : ({ pass with stage := Loop.begin loop } : Pass).left < pass.left := by
      unfold left
      rw [hstage]
      cases loop with
      | sources scanBudget =>
        change 8 * scanBudget + 2 * (lockedMaxRetries - 1) + 5 < 8 * scanBudget + 10
        rw [lockedMaxRetries]
        omega
      | _ => exact Nat.lt_succ_self _
    have hpositive : 0 < pass.left := Nat.lt_of_le_of_lt (Nat.zero_le _) hbegin
    simp only [advance, hstage]
    split
    · exact hbegin
    · split
      · exact hbegin
      · rw [hraised]
        exact hpositive
  | superseded =>
    have hleft : pass.left = 36 * pass.remaining + 13 := by simp only [left, hstage]
    simp only [advance, hstage]
    rcases pass.left_afterMemories _ .superseded .working with hzero | ⟨-, hle⟩ |
      ⟨remaining, hremaining, hle⟩
    · rw [hzero, hleft]
      omega
    · rw [Loop.cost] at hle
      omega
    · rw [Loop.cost] at hle
      omega
  | working =>
    have hleft : pass.left = 34 * pass.remaining + 11 := by simp only [left, hstage]
    simp only [advance, hstage]
    generalize (store.runStaleWorkingMemoryRetentionChunk pass.arguments.policy
      pass.arguments.now pass.chunkLimit).2 = stats
    rcases pass.left_afterMemories stats .working
      (.sources (max ((pass.remaining - stats.deletedMemoryObjects) * 4)
        (pass.remaining - stats.deletedMemoryObjects))) with hzero | ⟨hdeleted, hle⟩ |
      ⟨remaining, hremaining, hle⟩
    · rw [hzero, hleft]
      omega
    · rw [Loop.cost] at hle
      split at hle
      · omega
      · omega
    · rw [Loop.cost] at hle
      omega
  | preparing scanBudget furtherAttempts =>
    have hleft : pass.left = 8 * scanBudget + 2 * furtherAttempts + 5 := by
      simp only [left, hstage]
    simp only [advance, hstage]
    split
    · have hafter := pass.left_afterSources scanBudget 0 .zero
      rw [hleft]
      exact Nat.lt_of_lt_of_le hafter (by omega)
    · rw [hleft]
      exact Nat.lt_succ_self _
  | committing scanBudget furtherAttempts prepared =>
    have hleft : pass.left = 8 * scanBudget + 2 * furtherAttempts + 4 := by
      simp only [left, hstage]
    simp only [advance, hstage]
    split
    · rw [hraised]
      omega
    · cases furtherAttempts with
      | zero =>
        rw [hraised]
        omega
      | succ attempts =>
        rw [hleft]
        change 8 * scanBudget + 2 * attempts + 5 < _
        omega
    · next after stats hcommit =>
        have hafter := pass.left_afterSources scanBudget prepared.scannedCount stats
        rw [hleft]
        exact Nat.lt_of_lt_of_le hafter (by omega)

theorem ended_iff_left {pass : Pass} : pass.ended = true ↔ pass.left = 0 := by
  unfold ended left
  cases pass.stage with
  | renewing loop => cases loop <;> simp
  | _ => simp

theorem left_advance_le (clock : ℤ) (store : RetentionStore) :
    (pass.advance clock store).2.left ≤ pass.left - 1 := by
  by_cases hended : pass.ended = true
  · have hsame : (pass.advance clock store).2 = pass := by
      cases hstage : pass.stage with
      | finished => simp only [advance, hstage]
      | raised error => simp only [advance, hstage]
      | _ => simp [ended, hstage] at hended
    rw [hsame, ended_iff_left.mp hended]
  · have hless := left_advance clock store (Bool.eq_false_of_not_eq_true hended)
    omega

end Pass

namespace RetentionOp

theorem left_reached {run : RetentionRun} {pass : Pass} (hpass : run.pass = some pass)
    {ops : List RetentionOp} (hops : ∀ op ∈ ops, op.isBegin = false) :
    ∃ last, (Run.run step run ops).pass = some last ∧
      last.left ≤ pass.left - ops.countP isAdvance := by
  induction ops generalizing run pass with
  | nil => exact ⟨pass, hpass, Nat.le_refl _⟩
  | cons op rest ih =>
    have hrest : ∀ next ∈ rest, next.isBegin = false :=
      (List.forall_mem_cons.mp hops).2
    rw [run_cons]
    cases op with
    | begin arguments => cases hops (.begin arguments) List.mem_cons_self
    | other after =>
      have hstep : (step run (.other after)).pass = some pass := hpass
      exact ih hstep hrest
    | advance clock =>
      have hstep : (step run (.advance clock)).pass = some (pass.advance clock run.store).2 := by
        simp only [step, hpass]
      obtain ⟨last, hlast, hleft⟩ := ih hstep hrest
      have hless := Pass.left_advance_le pass clock run.store
      have hcount : (RetentionOp.advance clock :: rest).countP isAdvance =
          rest.countP isAdvance + 1 := List.countP_cons_of_pos rfl
      exact ⟨last, hlast, by omega⟩

theorem ended_of_bound (run : RetentionRun) (arguments : PassArguments) {ops : List RetentionOp}
    (hops : ∀ op ∈ ops, op.isBegin = false)
    (hbound : Pass.bound arguments ≤ ops.countP isAdvance) :
    (Run.run step (step run (.begin arguments)) ops).pass.any Pass.ended = true := by
  have hstart : (step run (.begin arguments)).pass = some (Pass.start arguments) := rfl
  obtain ⟨last, hlast, hleft⟩ := left_reached hstart hops
  have hfirst := Pass.left_start arguments
  rw [hlast, Option.any_some, Pass.ended_iff_left]
  omega

end RetentionOp

end Termination

section Sweep

open RetentionStore

variable {sourceItemId : String} {position : ℤ ×ₗ String}

/-- What a prepared chunk says about an item: behind the cursor it is scanned or lies behind
the last scanned item. -/
structure Prepared.Accounts (prepared : Prepared) (sourceItemId : String)
    (position : ℤ ×ₗ String) : Prop where
  scanned : Beyond prepared.cursor position → sourceItemId ∈ prepared.scannedIds ∨
    ∃ last, prepared.scanned.getLast? = some last ∧ last.scanKey < position

/-- What has been swept so far: an item that is not behind the cursor has been visited. -/
structure RetentionRun.Sweeping (sourceItemId : String) (position : ℤ ×ₗ String)
    (run : RetentionRun) : Prop where
  passed : ¬ Beyond run.store.cursor position → sourceItemId ∈ run.visited
  pending : ∀ pass ∈ run.pass, ∀ budget attempts prepared,
    pass.stage = .committing budget attempts prepared → prepared.Accounts sourceItemId position
  complete : run.swept = true → sourceItemId ∈ run.visited

theorem accounts_advance {pass : Pass} {clock : ℤ} {store : RetentionStore}
    (hitem : store.TerminalAt sourceItemId position) {budget attempts : ℕ} {prepared : Prepared}
    (hstage : (pass.advance clock store).2.stage = .committing budget attempts prepared) :
    prepared.Accounts sourceItemId position := by
  have henter : ∀ remaining loop, Pass.enter remaining loop ≠ .committing budget attempts prepared := by
    intro remaining loop
    unfold Pass.enter
    split
    · exact nofun
    · split
      · exact nofun
      · exact nofun
  cases hbefore : pass.stage with
  | renewing loop =>
    simp only [Pass.advance, hbefore] at hstage
    split at hstage
    · cases loop <;> cases hstage
    · split at hstage
      · cases loop <;> cases hstage
      · cases hstage
  | superseded =>
    simp only [Pass.advance, hbefore] at hstage
    exact absurd hstage (henter _ _)
  | working =>
    simp only [Pass.advance, hbefore] at hstage
    exact absurd hstage (henter _ _)
  | preparing scanBudget furtherAttempts =>
    simp only [Pass.advance, hbefore] at hstage
    split at hstage
    · simp only [Pass.afterSources] at hstage
      exact absurd hstage (henter _ _)
    · next hlimits =>
        obtain ⟨-, -, rfl⟩ := Stage.committing.inj hstage
        rw [not_or] at hlimits
        refine ⟨fun hbehind => ?_⟩
        rw [cursor_prepareSourceChunk] at hbehind
        exact scanned_or_behind hitem hbehind (Nat.pos_of_ne_zero hlimits.2)
  | committing scanBudget furtherAttempts before =>
    simp only [Pass.advance, hbefore] at hstage
    split at hstage
    · cases hstage
    · cases furtherAttempts with
      | zero => cases hstage
      | succ further => cases hstage
    · exact absurd hstage (henter _ _)
  | _ =>
    simp only [Pass.advance, hbefore] at hstage
    cases hstage

namespace RetentionOp

theorem sweeping_step (run : RetentionRun) (op : RetentionOp)
    (hthroughout : Throughout sourceItemId position run op)
    (hsweeping : run.Sweeping sourceItemId position) :
    (step run op).Sweeping sourceItemId position := by
  obtain ⟨hitem, hcursor⟩ := hthroughout
  cases op with
  | begin arguments =>
    refine ⟨hsweeping.passed, fun pass hpass budget attempts prepared hstage => ?_,
      hsweeping.complete⟩
    cases hpass
    unfold Pass.start at hstage
    simp only at hstage
    split_ifs at hstage
  | other after =>
    refine ⟨fun hpassed => hsweeping.passed ?_, hsweeping.pending, hsweeping.complete⟩
    change ¬ Beyond after.cursor position at hpassed
    rw [hcursor] at hpassed
    exact hpassed
  | advance clock =>
    cases hpass : run.pass with
    | none =>
      have hsame : step run (.advance clock) = run := by simp only [step, hpass]
      rw [hsame]
      exact hsweeping
    | some pass =>
      have hpending : ∀ next ∈ (step run (.advance clock)).pass, ∀ budget attempts prepared,
          next.stage = .committing budget attempts prepared →
            prepared.Accounts sourceItemId position := by
        intro next hnext budget attempts prepared hstage
        simp only [step, hpass, Option.mem_some_iff] at hnext
        exact accounts_advance hitem (hnext ▸ hstage)
      rcases advance_cases pass clock run.store with
        ⟨after, stats, prepared, hcommits, hcommit, hafter, budget, attempts, hstage⟩ |
        ⟨hcommits, hquiet⟩
      · have haccounts := hsweeping.pending pass hpass budget attempts prepared hstage
        obtain ⟨hbefore, hmoved⟩ := cursor_commitSourceChunk hcommit
        have hstore : (step run (.advance clock)).store = after := by
          simp only [step, hpass, hafter]
        have hvisited : (step run (.advance clock)).visited =
            run.visited ++ prepared.scannedIds := by
          simp only [step, hpass, hcommits, Option.elim_some]
        have hswept : (step run (.advance clock)).swept =
            (run.swept || prepared.scanned.isEmpty) := by
          simp only [step, hpass, hcommits, Option.any_some]
        -- an item that is not behind the new cursor was passed before, or is scanned now
        have hseen : (∀ last, prepared.scanned.getLast? = some last →
            ¬ last.scanKey < position) → sourceItemId ∈ run.visited ++ prepared.scannedIds := by
          intro hlast
          by_cases hbehind : Beyond prepared.cursor position
          · rcases haccounts.scanned hbehind with hscanned | ⟨last, hfound, hlt⟩
            · exact List.mem_append_right _ hscanned
            · exact absurd hlt (hlast last hfound)
          · rw [← hbefore] at hbehind
            exact List.mem_append_left _ (hsweeping.passed hbehind)
        refine ⟨fun hpassed => ?_, hpending, fun hcomplete => ?_⟩
        · rw [hvisited]
          apply hseen
          intro last hlast hlt
          apply hpassed
          rw [hstore, hmoved, hlast, Option.map_some, Paging.beyond_some]
          exact hlt
        · rw [hvisited]
          rw [hswept, Bool.or_eq_true] at hcomplete
          rcases hcomplete with hearlier | hempty
          · exact List.mem_append_left _ (hsweeping.complete hearlier)
          · apply hseen
            intro last hlast
            rw [List.isEmpty_iff.mp hempty] at hlast
            cases hlast
      · have hstore : (step run (.advance clock)).store = (pass.advance clock run.store).1 := by
          simp only [step, hpass]
        have hvisited : (step run (.advance clock)).visited = run.visited := by
          simp only [step, hpass, hcommits, Option.elim_none, List.append_nil]
        have hswept : (step run (.advance clock)).swept = run.swept := by
          simp only [step, hpass, hcommits, Option.any_none, Bool.or_false]
        refine ⟨fun hpassed => ?_, hpending, fun hcomplete => ?_⟩
        · rw [hvisited]
          apply hsweeping.passed
          rw [hstore, hquiet.cursor] at hpassed
          exact hpassed
        · rw [hvisited]
          rw [hswept] at hcomplete
          exact hsweeping.complete hcomplete

/-- Over every run of passes among other writers, a pass spares what is protected or leased
and leaves nothing behind, it ends, and a sweep visits what has been there throughout. -/
theorem retention_safe (store : RetentionStore) (ops : List RetentionOp) :
    Along step Sound (RetentionRun.fresh store) ops ∧
      (Along step KeepsOut (RetentionRun.fresh store) ops →
        ∀ target ∈ (reached store ops).deleted,
          ¬ (reached store ops).store.Referenced target.1 target.2) ∧
      (∀ arguments later, (∀ op ∈ later, op.isBegin = false) →
        Pass.bound arguments ≤ later.countP isAdvance →
          (Run.run step (step (reached store ops) (.begin arguments)) later).pass.any
            Pass.ended = true) ∧
      ∀ sourceItemId position, store.cursor = none →
        Along step (Throughout sourceItemId position) (RetentionRun.fresh store) ops →
          (reached store ops).swept = true → sourceItemId ∈ (reached store ops).visited := by
  have halways : Along step (fun _ _ => True) (RetentionRun.fresh store) ops :=
    Along.of_forall fun _ _ => trivial
  refine ⟨halways.mono fun run op _ => sound_step run op, fun hkeeps => ?_,
    fun arguments later hops hbound => ended_of_bound _ arguments hops hbound,
    fun sourceItemId position hcursor hthroughout => ?_⟩
  · have hunreferenced : Unreferenced (reached store ops) :=
      hkeeps.invariant (fun _ htarget => absurd htarget List.not_mem_nil) unreferenced_step
    exact hunreferenced
  · have hstart : (RetentionRun.fresh store).Sweeping sourceItemId position := by
      refine ⟨fun hpassed => ?_, fun pass hpass => absurd hpass nofun, nofun⟩
      change ¬ Beyond store.cursor position at hpassed
      rw [hcursor] at hpassed
      exact absurd (Paging.beyond_none position) hpassed
    have hsweeping : (reached store ops).Sweeping sourceItemId position :=
      hthroughout.invariant hstart sweeping_step
    exact hsweeping.complete

end RetentionOp

end Sweep

section Passes

open RetentionStore RetentionOp

instance (store : RetentionStore) (targetKind : TargetKind) (targetId : String) :
    Decidable (store.Referenced targetKind targetId) :=
  inferInstanceAs (Decidable (_ ∨ _ ∨ _))

instance (store : RetentionStore) (sourceItemId : String) (position : ℤ ×ₗ String) :
    Decidable (store.TerminalAt sourceItemId position) :=
  decidable_of_iff ((store.sourceItems.get sourceItemId).any fun record =>
      record.terminal && decide (record.scanKey = position))
    (by simp only [TerminalAt, Option.any_eq_true, Bool.and_eq_true, decide_eq_true_eq])

instance decidableKeepsOut (run : RetentionRun) : ∀ op, Decidable (KeepsOut run op)
  | .other _ => inferInstanceAs (Decidable (∀ target ∈ run.deleted, _ → _))
  | .begin _ => isTrue trivial
  | .advance _ => isTrue trivial

instance decidableThroughout (sourceItemId : String) (position : ℤ ×ₗ String)
    (run : RetentionRun) : ∀ op, Decidable (Throughout sourceItemId position run op)
  | .other _ => inferInstanceAs (Decidable (_ ∧ _ = _))
  | .begin _ => inferInstanceAs (Decidable (_ ∧ True))
  | .advance _ => inferInstanceAs (Decidable (_ ∧ True))

def completedMessage (id : String) (createdAt : ℤ) (hnamed : id ≠ "") : SourceItemRecord where
  id := id
  createdAt := createdAt
  occurredAt := none
  artifactKind := some "message"
  metadata := []
  processingStatus := .completed
  processingClaimedBy := none
  processingLeaseExpiresAt := none
  named := hnamed

def storeOf (sourceItems : List SourceItemRecord)
    (hnodup : (sourceItems.map SourceItemRecord.id).Nodup) : RetentionStore where
  sourceItems := ⟨sourceItems, hnodup⟩
  memories := Table.empty
  relations := []
  index := .empty
  workRefs := []
  flags := []
  maintenance := none

theorem new_named : "new" ≠ "" := by decide

theorem old_named : "old" ≠ "" := by decide

/-- A message that has expired after a hundred days, and one that has not. -/
def oldAndNew : RetentionStore :=
  storeOf [completedMessage "new" (100 * day) new_named, completedMessage "old" 0 old_named]
    (by decide)

def passArguments (batchSize : ℤ) : PassArguments where
  now := 101 * day
  batchSize := batchSize
  lease := none
  leaseSeconds := none
  leaseNow := none
  retentionPolicy := none

/-- A pass that sees everything. -/
def wholePass : List RetentionOp := .begin (passArguments 2) :: List.replicate 12 (.advance 0)

theorem retention_safe_wholePass :
    (reached oldAndNew wholePass).deleted = [(.sourceItem, "old")] ∧
      ¬ (reached oldAndNew wholePass).store.Referenced .sourceItem "old" ∧
      (Run.run step (step (reached oldAndNew wholePass) (.begin (passArguments 1)))
        (List.replicate 50 (.advance 0))).pass.any Pass.ended = true ∧
      "new" ∈ (reached oldAndNew wholePass).visited := by
  have hsafe := retention_safe oldAndNew wholePass
  have hdeleted : (reached oldAndNew wholePass).deleted = [(.sourceItem, "old")] := by
    decide +kernel
  refine ⟨hdeleted, ?_, ?_, ?_⟩
  · apply hsafe.2.1 (by decide +kernel) (.sourceItem, "old")
    rw [hdeleted]
    exact List.mem_singleton_self _
  · exact hsafe.2.2.1 _ _ (by decide) (by decide)
  · exact hsafe.2.2.2 "new" (toLex (100 * day, "new")) (by decide +kernel) (by decide +kernel)
      (by decide +kernel)

theorem a_named : "a" ≠ "" := by decide

theorem b_named : "b" ≠ "" := by decide

theorem c_named : "c" ≠ "" := by decide

/-- Five messages, none of which has expired. -/
def fiveMessages : RetentionStore :=
  storeOf [completedMessage "a" (100 * day) a_named, completedMessage "b" (100 * day) b_named,
    completedMessage "c" (100 * day) c_named, completedMessage "d" (100 * day) (by decide),
    completedMessage "e" (100 * day) (by decide)] (by decide)

/-- A pass whose scan ends with its budget. -/
def shortPass : List RetentionOp := .begin (passArguments 1) :: List.replicate 9 (.advance 0)

/-- A result that was derived from an item, committed after the item has been deleted. -/
def lateResult (store : RetentionStore) : RetentionStore :=
  { store with
    memories := store.memories.put ⟨"memory", "decision", .active, 100 * day, none⟩
    relations := store.relations ++ [⟨.memoryObject, "memory", .supportedBy, .sourceItem, "old"⟩] }

def latePass : List RetentionOp :=
  wholePass.take 8 ++ [.other (lateResult (reached oldAndNew (wholePass.take 8)).store)] ++
    wholePass.drop 8

/-- A pass can end without having visited an item that was terminal throughout; and after
the last chunk of a pass, a relation that came late refers to an item it has deleted. -/
theorem pass_misses_item :
    (Along step (Throughout "e" (toLex (100 * day, "e"))) (RetentionRun.fresh fiveMessages)
        shortPass ∧
      (reached fiveMessages shortPass).pass.any Pass.ended = true ∧
      "e" ∉ (reached fiveMessages shortPass).visited) ∧
    (TargetKind.sourceItem, "old") ∈ (reached oldAndNew latePass).deleted ∧
      (reached oldAndNew latePass).store.Referenced .sourceItem "old" := by
  refine ⟨⟨?_, ?_, ?_⟩, ?_, ?_⟩
  · decide +kernel
  · decide +kernel
  · decide +kernel
  · decide +kernel
  · decide +kernel

end Passes

end Pallium.Retention
