import Pallium.Core.ChainWalk
import Pallium.Memory.ExplicitWrite
import Pallium.Memory.Retrieval

/-!
# Historical guidance

What an outdated memory was replaced by is found along its successors, for at most twelve
hops.  Only the memory at the end is judged by what the requester sees; of the memories on
the way there, and of one that the requester may not see, an update says nothing.
-/

namespace Pallium.Memory

open ChainWalk Text

inductive ReplacementStatus
  | current
  | conflict
  | cycle
  | chainLimit
  | unavailable
  deriving DecidableEq, Repr

structure HistoricalGuidanceUpdate where
  outdatedMemoryObjectId : String
  memoryType : String
  status : String
  replacementStatus : ReplacementStatus
  currentMemoryObjectId : Option String := none
  currentText : Option String := none
  currentTextTruncated : Bool := false
  currentRecordedAt : Option ℤ := none
  deriving DecidableEq, Repr

/-- What an update shows of a memory: its text before and after redaction, and when it was
recorded. -/
structure GuidanceView where
  matchText : MemoryObjectRecord → String
  redactSensitive : String → String
  recordedAt : MemoryObjectRecord → ℤ

section Resolution

variable (view : GuidanceView) (store : MemoryStore) (requester : Requester)

def replacementIsVisible (memory : MemoryObjectRecord) : Bool :=
  !memory.isSoftDeleted && memory.lifecycle == .active &&
    requester.sees memory.decodedVisibility memory.containerRef memory.actorRef &&
    ((store.evidence memory.id).isEmpty ||
      (store.evidence memory.id).any fun source =>
        source.forgottenAt.isNone &&
          requester.sees (source.visibility.getD .priv) source.containerRef source.actorRef)

/-- The successors of a memory; one that is missing has none. -/
def successorsOf (memoryObjectId : String) : List String :=
  if (store.memories.get memoryObjectId).isSome then store.successorIds memoryObjectId else []

/-- The successor exists and is of a type of historical guidance. -/
def continues (memoryObjectId : String) : Bool :=
  (store.memories.get memoryObjectId).any fun memory => memory.type ∈ allowedMemoryTypes

def plainUpdate (outdated : MemoryObjectRecord) (status : ReplacementStatus) :
    HistoricalGuidanceUpdate where
  outdatedMemoryObjectId := outdated.id
  memoryType := outdated.type
  status := "outdated"
  replacementStatus := status

def currentUpdate (outdated current : MemoryObjectRecord) : HistoricalGuidanceUpdate :=
  let text := view.redactSensitive (view.matchText current)
  { plainUpdate outdated .current with
    currentMemoryObjectId := some current.id
    currentText := some (take 240 text) |>.filter (· ≠ "")
    currentTextTruncated := 240 < text.length
    currentRecordedAt := some (view.recordedAt current) }

/-- The memory at the end of the walk, if it is a replacement to report. -/
def replacementAt (outdated : MemoryObjectRecord) (currentId : String) :
    Option MemoryObjectRecord :=
  (store.memories.get currentId).filter fun current =>
    current.id ≠ outdated.id ∧ current.type ∈ allowedMemoryTypes ∧
      replacementIsVisible store requester current

def report (outdated : MemoryObjectRecord) : Stop String → HistoricalGuidanceUpdate
  | .ended currentId =>
    match replacementAt store requester outdated currentId with
    | some current => currentUpdate view outdated current
    | none => plainUpdate outdated .unavailable
  | .conflict => plainUpdate outdated .conflict
  | .cycle => plainUpdate outdated .cycle
  | .blocked => plainUpdate outdated .unavailable
  | .limit => plainUpdate outdated .chainLimit

def historicalUpdate (outdated : MemoryObjectRecord) : HistoricalGuidanceUpdate :=
  report view store requester outdated
    (walk (successorsOf store) (continues store) 12 outdated.id [outdated.id])

/-- The chain of unique successors, through memories of historical guidance. -/
def Leads (outdated : MemoryObjectRecord) : ℕ → String → Prop :=
  Reaches (successorsOf store) (continues store) outdated.id

/-- The requester may see the memory, and some of its evidence unless it has none. -/
structure Available (memory : MemoryObjectRecord) : Prop where
  active : memory.lifecycle = .active
  kept : memory.isSoftDeleted = false
  seen : requester.sees memory.decodedVisibility memory.containerRef memory.actorRef
  supported : store.evidence memory.id = [] ∨
    ∃ source ∈ store.evidence memory.id, source.forgottenAt = none ∧
      requester.sees (source.visibility.getD .priv) source.containerRef source.actorRef

/-- The memory at the end of the chain from an outdated one, fewer than twelve hops away. -/
structure CurrentReplacement (outdated current : MemoryObjectRecord) : Prop where
  stored : store.memories.get current.id = some current
  reached : ∃ hops, 0 < hops ∧ hops < 12 ∧ Leads store outdated hops current.id
  last : successorsOf store current.id = []
  available : Available store requester current

/-- The chain turns back to a memory it has led to before. -/
def TurnsBack (outdated : MemoryObjectRecord) : Prop :=
  ∃ hops memoryId next, hops < 12 ∧ Leads store outdated hops memoryId ∧
    successorsOf store memoryId = [next] ∧ ∃ before ≤ hops, Leads store outdated before next

/-- What the supersession graph says about an outdated memory, when nothing replaces it. -/
inductive Unresolved (outdated : MemoryObjectRecord) : ReplacementStatus → Prop
  | conflict {hops : ℕ} {memoryId : String} (hbound : hops < 12)
      (hleads : Leads store outdated hops memoryId)
      (hseveral : 1 < (successorsOf store memoryId).length) : Unresolved outdated .conflict
  | cycle (hturns : TurnsBack store outdated) : Unresolved outdated .cycle
  | chainLimit {memoryId : String} (hleads : Leads store outdated 12 memoryId)
      (hturns : ¬ TurnsBack store outdated) : Unresolved outdated .chainLimit
  | ended {hops : ℕ} {memoryId : String} (hbound : hops < 12)
      (hleads : Leads store outdated hops memoryId) (hlast : successorsOf store memoryId = [])
      (hnone : ∀ current, ¬ CurrentReplacement store requester outdated current) :
      Unresolved outdated .unavailable
  | broken {hops : ℕ} {memoryId next : String} (hbound : hops < 12)
      (hleads : Leads store outdated hops memoryId) (honly : successorsOf store memoryId = [next])
      (hturns : ¬ TurnsBack store outdated) (hstops : ¬ continues store next) :
      Unresolved outdated .unavailable

variable {view store requester} {outdated current : MemoryObjectRecord}

theorem replacementIsVisible_iff :
    replacementIsVisible store requester current ↔ Available store requester current := by
  simp only [replacementIsVisible, Bool.and_eq_true, Bool.not_eq_true', beq_iff_eq,
    Bool.or_eq_true, List.isEmpty_iff, List.any_eq_true, Option.isNone_iff_eq_none]
  constructor
  · rintro ⟨⟨⟨hkept, hactive⟩, hseen⟩, hsupported⟩
    exact ⟨hactive, hkept, hseen, hsupported⟩
  · rintro ⟨hactive, hkept, hseen, hsupported⟩
    exact ⟨⟨⟨hkept, hactive⟩, hseen⟩, hsupported⟩

theorem mem_allowed_of_leads {hops : ℕ} (hpositive : 0 < hops)
    (hleads : Leads store outdated hops current.id)
    (hstored : store.memories.get current.id = some current) :
    current.type ∈ allowedMemoryTypes := by
  have hcontinues : continues store current.id := Reaches.admitted hleads hpositive
  simpa [continues, hstored] using hcontinues

theorem replacementAt_eq_some {hops : ℕ} {currentId : String} (hbound : hops < 12)
    (hleads : Leads store outdated hops currentId) (hlast : successorsOf store currentId = []) :
    replacementAt store requester outdated currentId = some current ↔
      current.id = currentId ∧ CurrentReplacement store requester outdated current := by
  rw [replacementAt, Option.filter_eq_some_iff]
  constructor
  · rintro ⟨hstored, haccepted⟩
    obtain ⟨hother, _, hvisible⟩ := of_decide_eq_true haccepted
    obtain rfl : current.id = currentId := Table.key_of_get hstored
    refine ⟨rfl, hstored, ⟨hops, ?_, hbound, hleads⟩, hlast,
      replacementIsVisible_iff.1 hvisible⟩
    refine Nat.pos_of_ne_zero fun hzero => hother ?_
    subst hzero
    exact hleads.unique Reaches.refl
  · rintro ⟨rfl, hcurrent⟩
    obtain ⟨hops', hpositive, _, hleads'⟩ := hcurrent.reached
    refine ⟨hcurrent.stored, decide_eq_true ⟨?_, ?_, ?_⟩⟩
    · intro hsame
      obtain ⟨next, hnext, _⟩ := Reaches.refl.goes_on hleads' hpositive
      rw [← hsame, hlast] at hnext
      exact nomatch hnext
    · exact mem_allowed_of_leads hpositive hleads' hcurrent.stored
    · exact replacementIsVisible_iff.2 hcurrent.available

theorem historicalUpdate_of_stops {stop : Stop String}
    (hstops : Stops (successorsOf store) (continues store) outdated.id 12 stop) :
    historicalUpdate view store requester outdated =
      report view store requester outdated stop := by
  rw [historicalUpdate, walk_eq_iff.2 hstops]

theorem CurrentReplacement.reported
    (hcurrent : CurrentReplacement store requester outdated current) :
    historicalUpdate view store requester outdated = currentUpdate view outdated current := by
  obtain ⟨hops, _, hbound, hleads⟩ := hcurrent.reached
  rw [historicalUpdate_of_stops (Stops.early hbound hleads (Verdict.ended hcurrent.last)), report,
    (replacementAt_eq_some hbound hleads hcurrent.last).2 ⟨rfl, hcurrent⟩]

theorem turnsBack_iff :
    TurnsBack store outdated ↔ ∃ hops < 12, ∃ memoryId, Leads store outdated hops memoryId ∧
      Verdict (successorsOf store) (continues store) outdated.id hops memoryId .cycle := by
  constructor
  · rintro ⟨hops, memoryId, next, hbound, hleads, honly, before, hbefore, hagain⟩
    exact ⟨hops, hbound, memoryId, hleads, Verdict.cycle honly hbefore hagain⟩
  · rintro ⟨hops, hbound, memoryId, hleads, hverdict⟩
    cases hverdict with
    | cycle honly hbefore hagain =>
      exact ⟨hops, memoryId, _, hbound, hleads, honly, _, hbefore, hagain⟩

/-- Without a replacement the update says no more than why there is none. -/
theorem Unresolved.reported {status : ReplacementStatus}
    (hunresolved : Unresolved store requester outdated status) :
    historicalUpdate view store requester outdated = plainUpdate outdated status := by
  cases hunresolved with
  | conflict hbound hleads hseveral =>
    exact historicalUpdate_of_stops (Stops.early hbound hleads (Verdict.conflict hseveral))
  | cycle hturns =>
    obtain ⟨hops, hbound, memoryId, hleads, hverdict⟩ := turnsBack_iff.1 hturns
    exact historicalUpdate_of_stops (Stops.early hbound hleads hverdict)
  | chainLimit hleads hturns =>
    refine historicalUpdate_of_stops (Stops.limit hleads ?_)
    intro hops hbound memoryId hbetween hverdict
    exact hturns (turnsBack_iff.2 ⟨hops, hbound, memoryId, hbetween, hverdict⟩)
  | @ended hops memoryId hbound hleads hlast hnone =>
    rw [historicalUpdate_of_stops (Stops.early hbound hleads (Verdict.ended hlast)), report]
    rcases hfound : replacementAt store requester outdated memoryId with _ | current
    · rfl
    · exact absurd ((replacementAt_eq_some hbound hleads hlast).1 hfound).2 (hnone current)
  | @broken hops memoryId next hbound hleads honly hturns hstops =>
    refine historicalUpdate_of_stops
      (Stops.early hbound hleads (Verdict.blocked honly ?_ hstops))
    intro before hbefore hagain
    exact hturns ⟨hops, memoryId, next, hbound, hleads, honly, before, hbefore, hagain⟩

/-- Every supersession graph has a current replacement or a reason why there is none. -/
theorem replaced_or_unresolved (store : MemoryStore) (requester : Requester)
    (outdated : MemoryObjectRecord) :
    (∃ current, CurrentReplacement store requester outdated current) ∨
      ∃ status, Unresolved store requester outdated status := by
  obtain ⟨stop, hstops⟩ : ∃ stop,
      Stops (successorsOf store) (continues store) outdated.id 12 stop :=
    ⟨_, walk_eq_iff.1 rfl⟩
  cases hstops with
  | @early hops memoryId _ hbound hleads hverdict =>
    cases hverdict with
    | ended hlast =>
      by_cases hcurrent : ∃ current, CurrentReplacement store requester outdated current
      · exact Or.inl hcurrent
      · exact Or.inr ⟨.unavailable, .ended hbound hleads hlast (not_exists.1 hcurrent)⟩
    | conflict hseveral => exact Or.inr ⟨.conflict, .conflict hbound hleads hseveral⟩
    | cycle honly hbefore hagain =>
      exact Or.inr ⟨.cycle, .cycle ⟨hops, memoryId, _, hbound, hleads, honly, _, hbefore,
        hagain⟩⟩
    | blocked honly hnew hstop =>
      refine Or.inr ⟨.unavailable, .broken hbound hleads honly ?_ hstop⟩
      intro hturns
      obtain ⟨_, hbound', _, hleads', hverdict⟩ := turnsBack_iff.1 hturns
      exact nomatch (Stops.early hbound hleads (Verdict.blocked honly hnew hstop)).unique
        (Stops.early hbound' hleads' hverdict)
  | limit hleads hopen =>
    refine Or.inr ⟨.chainLimit, .chainLimit hleads ?_⟩
    intro hturns
    obtain ⟨hops, hbound, memoryId, hbetween, hverdict⟩ := turnsBack_iff.1 hturns
    exact hopen hops hbound memoryId hbetween hverdict

theorem Unresolved.ne_current {status : ReplacementStatus}
    (hunresolved : Unresolved store requester outdated status) : status ≠ .current := by
  cases hunresolved <;> exact nofun

variable (view store requester outdated) in
/-- An update names the current replacement exactly when there is one, and otherwise gives
the reason that the supersession graph has and nothing of any other memory. -/
theorem historicalUpdate_resolution :
    ((∃ current, CurrentReplacement store requester outdated current ∧
        historicalUpdate view store requester outdated = currentUpdate view outdated current) ∨
      ∃ status, Unresolved store requester outdated status ∧
        historicalUpdate view store requester outdated = plainUpdate outdated status) ∧
    ((historicalUpdate view store requester outdated).replacementStatus = .current ↔
      ∃ current, CurrentReplacement store requester outdated current) ∧
    ∀ status, Unresolved store requester outdated status ↔
      status ≠ .current ∧
        (historicalUpdate view store requester outdated).replacementStatus = status := by
  have hcases := replaced_or_unresolved store requester outdated
  refine ⟨?_, ⟨?_, ?_⟩, fun status => ⟨?_, ?_⟩⟩
  · rcases hcases with ⟨current, hcurrent⟩ | ⟨status, hunresolved⟩
    · exact Or.inl ⟨current, hcurrent, hcurrent.reported⟩
    · exact Or.inr ⟨status, hunresolved, hunresolved.reported⟩
  · intro hstatus
    rcases hcases with hcurrent | ⟨status, hunresolved⟩
    · exact hcurrent
    · rw [hunresolved.reported] at hstatus
      exact absurd hstatus hunresolved.ne_current
  · rintro ⟨current, hcurrent⟩
    rw [hcurrent.reported]
    rfl
  · intro hunresolved
    rw [hunresolved.reported]
    exact ⟨hunresolved.ne_current, rfl⟩
  · rintro ⟨hne, hstatus⟩
    rcases hcases with ⟨current, hcurrent⟩ | ⟨other, hunresolved⟩
    · rw [hcurrent.reported] at hstatus
      exact absurd hstatus.symm hne
    · rw [hunresolved.reported] at hstatus
      exact hstatus ▸ hunresolved

end Resolution

end Pallium.Memory
