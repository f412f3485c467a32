import Pallium.Retention.Erasure

/-!
# A retention pass among other writers

A pass is a sequence of transactions, and between any two of them other writers may
change the store.  The pass ends after a bounded number of transactions whatever they
do.  It spends a budget on its scan, so one pass need not see every item; the scans from
an empty cursor to the one that comes up empty, in one pass or in several, see every
terminal item that has been there throughout.
-/

namespace Pallium.Retention

open Pallium.Memory (TargetKind RelationRecord)
open Pallium.Paging (Beyond)
open Pallium.Run

/-- The arguments of `run_retention_pass`. -/
structure PassArguments where
  now : ℤ
  batchSize : ℤ
  lease : Option RetentionLease
  leaseSeconds : Option ℤ
  leaseNow : Option ℤ
  retentionPolicy : Option MemoryRetentionPolicy

/-- The policy, which classifies nothing where there is none. -/
def PassArguments.policy (arguments : PassArguments) : MemoryRetentionPolicy :=
  arguments.retentionPolicy.getD ⟨[], [], []⟩

/-- The loops of a pass. -/
inductive Loop
  | superseded
  | working
  | sources (scanBudget : ℕ)
  | debug

/-- The next transaction of a pass; an attempt at a chunk of source items may be followed
by others. -/
inductive Stage
  | renewing (loop : Loop)
  | superseded
  | working
  | preparing (scanBudget furtherAttempts : ℕ)
  | committing (scanBudget furtherAttempts : ℕ) (prepared : Prepared)
  | stripping
  | finished
  | raised (error : RetentionError)

structure Pass where
  arguments : PassArguments
  remaining : ℕ
  stats : RetentionRunStats
  stage : Stage

namespace Pass

def retentionLeaseRenewalBatch : ℕ := 50

def lockedMaxRetries : ℕ := 3

def start (arguments : PassArguments) : Pass where
  arguments := arguments
  remaining := arguments.batchSize.toNat
  stats := .zero
  stage :=
    if arguments.batchSize.toNat = 0 then .finished
    else if arguments.lease.isSome ∧ arguments.leaseSeconds = none then
      .raised .missingLeaseSeconds
    else .renewing .superseded

/-- The most rows that the next chunk deletes. -/
def chunkLimit (pass : Pass) : ℕ := min pass.remaining retentionLeaseRenewalBatch

/-- The most items that the next chunk scans. -/
def scanLimit (pass : Pass) (scanBudget : ℕ) : ℕ :=
  min (max (pass.chunkLimit * 4) pass.chunkLimit) scanBudget

/-- The stage that begins a loop, which is skipped where nothing remains. -/
def enter (remaining : ℕ) (loop : Loop) : Stage :=
  if remaining = 0 then .finished
  else
    match loop with
    | .sources 0 => .renewing .debug
    | loop => .renewing loop

/-- The pass after a chunk that has deleted memories: the loop goes on unless it has
deleted none. -/
def afterMemories (pass : Pass) (stats : RetentionRunStats) (loop next : Loop) : Pass :=
  let remaining := pass.remaining - stats.deletedMemoryObjects
  { pass with
    remaining := remaining
    stats := pass.stats.merge stats
    stage := enter remaining (if stats.deletedMemoryObjects = 0 then next else loop) }

/-- The pass after a chunk of source items: the loop goes on unless it has scanned none. -/
def afterSources (pass : Pass) (scanBudget : ℕ) (stats : RetentionRunStats)
    (scannedCount : ℕ) : Pass :=
  let remaining := pass.remaining - stats.deletedSourceItems
  { pass with
    remaining := remaining
    stats := pass.stats.merge stats
    stage := enter remaining
      (if scannedCount = 0 then .debug else .sources (scanBudget - scannedCount)) }

/-- The first transaction of a loop after the renewal. -/
def Loop.begin : Loop → Stage
  | .superseded => .superseded
  | .working => .working
  | .sources scanBudget => .preparing scanBudget (lockedMaxRetries - 1)
  | .debug => .stripping

/-- The next transaction of a pass at a time of the clock. -/
def advance (pass : Pass) (clock : ℤ) (store : RetentionStore) : RetentionStore × Pass :=
  let arguments := pass.arguments
  match pass.stage with
  | .renewing loop =>
    match arguments.lease with
    | none => (store, { pass with stage := Loop.begin loop })
    | some lease =>
      match store.renewRetentionLease lease (arguments.leaseSeconds.getD 0)
          (arguments.leaseNow.getD clock) with
      | .ok renewed => (renewed, { pass with stage := Loop.begin loop })
      | .error error => (store, { pass with stage := .raised error })
  | .superseded =>
    let chunk := store.runSupersededMemoryRetentionChunk arguments.now pass.chunkLimit
    (chunk.1, pass.afterMemories chunk.2 .superseded .working)
  | .working =>
    let chunk := store.runStaleWorkingMemoryRetentionChunk arguments.policy arguments.now
      pass.chunkLimit
    (chunk.1, pass.afterMemories chunk.2 .working
      (.sources (max ((pass.remaining - chunk.2.deletedMemoryObjects) * 4)
        (pass.remaining - chunk.2.deletedMemoryObjects))))
  | .preparing scanBudget furtherAttempts =>
    let scanLimit := pass.scanLimit scanBudget
    if pass.chunkLimit = 0 ∨ scanLimit = 0 then (store, pass.afterSources scanBudget .zero 0)
    else
      (store, { pass with
        stage := .committing scanBudget furtherAttempts
          (store.prepareSourceChunk arguments.policy arguments.now pass.chunkLimit scanLimit) })
  | .committing scanBudget furtherAttempts prepared =>
    match store.commitSourceChunk arguments.policy arguments.now arguments.lease
        (arguments.leaseNow.getD clock) prepared with
    | .error error => (store, { pass with stage := .raised error })
    | .ok none =>
      match furtherAttempts with
      | 0 => (store, { pass with stage := .raised .cursorChanged })
      | attempts + 1 => (store, { pass with stage := .preparing scanBudget attempts })
    | .ok (some (after, stats)) =>
      (after, pass.afterSources scanBudget stats prepared.scannedCount)
  | .stripping =>
    let chunk := store.runDebugMetadataStrippingChunk arguments.now pass.chunkLimit
    (chunk.1, { pass with stats := pass.stats.merge chunk.2, stage := .finished })
  | .finished => (store, pass)
  | .raised _ => (store, pass)

/-- The chunk of source items that the next transaction commits. -/
def commits (pass : Pass) (clock : ℤ) (store : RetentionStore) : Option Prepared :=
  match pass.stage with
  | .committing _ _ prepared =>
    match store.commitSourceChunk pass.arguments.policy pass.arguments.now pass.arguments.lease
        (pass.arguments.leaseNow.getD clock) prepared with
    | .ok (some _) => some prepared
    | _ => none
  | _ => none

/-- Whether the pass has returned or raised. -/
def ended (pass : Pass) : Bool :=
  match pass.stage with
  | .finished => true
  | .raised _ => true
  | _ => false

end Pass

end Pallium.Retention
