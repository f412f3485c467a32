import Pallium.Ingest.IngestItem

/-!
# Attribution of role history turns

Ingests of user and assistant rows run next to each other and to forgets, call by
call.  A lookup of the user row of a turn may be out of date when the item is
created, but a user row never changes its attribution and never goes away; so an
assistant row that is created from a lookup agrees with the row at all later
times.
-/

namespace Pallium.Ingest

open Pallium.Access Pallium.Calls Pallium.Run

/-- Forgets of one item or of a scope. -/
inductive Forget
  | sourceItem (sourceItemId : String) (forgottenAt : ℤ)
  | sourceScope (scope : ForgetScope) (forgottenAt : ℤ)

def Forget.apply : Forget → Storage → Storage
  | sourceItem sourceItemId forgottenAt, storage =>
    storage.forgetSourceItem sourceItemId forgottenAt
  | sourceScope scope forgottenAt, storage => storage.forgetSourceScope scope forgottenAt

/-- What happens in a history: an ingest begins, the next call of an ingest is
answered or fails, an ingest stops, or rows are forgotten. -/
inductive HistoryOp
  | ingest (draws : Draws) (request : IngestRequest)
  | answered (index : ℕ)
  | failed (index : ℕ)
  | stopped (index : ℕ)
  | forgets (forget : Forget)

abbrev History := Shared Request.Answer Storage (Except IngestError IngestResult)

def HistoryOp.event (setup : Setup) :
    HistoryOp → Event Request.Answer (Except IngestError IngestResult) Forget
  | ingest draws request => .starts (ingestItem setup draws request)
  | answered index => .answered index
  | failed index => .failed index
  | stopped index => .stopped index
  | forgets forget => .acted forget

def HistoryOp.step (setup : Setup) (history : History) (op : HistoryOp) : History :=
  history.step (answer setup.toWorkRefRules) Forget.apply (op.event setup)

/-- The storage and the ingests under way after a history. -/
def history (setup : Setup) (ops : List HistoryOp) : History :=
  run (HistoryOp.step setup) ⟨Storage.empty, []⟩ ops

/-- Every item is still there, unchanged unless it has been forgotten. -/
def Kept (before after : Storage) : Prop :=
  ∀ sourceItemId item, before.sourceItems.get sourceItemId = some item →
    ∃ forgottenAt, after.sourceItems.get sourceItemId = some { item with forgottenAt }

/-- The item is the user row of its turn, or agrees with it. -/
def MatchesUser (storage : Storage) (item : SourceItem) : Prop :=
  ∃ turn user, item.turnKey = some turn ∧ user ∈ storage.sourceItems.rows ∧
    user.isUserOf turn ∧ user.relayName = item.relayName ∧
      user.relayAttributionState = item.relayAttributionState

/-- The row is an assistant row with a turn id. -/
def SourceItem.keyedAssistant (item : SourceItem) : Prop :=
  item.role = some "assistant" ∧ item.sourceTurnId.isSome

structure AttributionInvariant (storage : Storage) : Prop where
  unique : ∀ turn first second, first ∈ storage.sourceItems.rows →
    second ∈ storage.sourceItems.rows → first.isUserOf turn → second.isUserOf turn →
      first = second
  matched : ∀ item ∈ storage.sourceItems.rows, item.keyedAssistant → MatchesUser storage item

/-- An assistant row with a turn id is created only if it agrees with its user row. -/
def Attributed : Request → Storage → Prop
  | .createSourceItemWithPackages item _ _ _, storage =>
    item.keyedAssistant → MatchesUser storage item
  | _, _ => True

section Stability

variable {rules : WorkRefRules} {storage before after : Storage} {item : SourceItem}

theorem Kept.refl (storage : Storage) : Kept storage storage :=
  fun _ item hget => ⟨item.forgottenAt, hget⟩

theorem Kept.trans {first second third : Storage} (hfirst : Kept first second)
    (hsecond : Kept second third) : Kept first third := by
  intro sourceItemId item hget
  obtain ⟨forgottenAt, hmiddle⟩ := hfirst sourceItemId item hget
  obtain ⟨later, hlast⟩ := hsecond sourceItemId _ hmiddle
  exact ⟨later, hlast⟩

theorem Kept.of_eq (hsame : after.sourceItems = before.sourceItems) : Kept before after := by
  intro sourceItemId item hget
  rw [hsame]
  exact ⟨item.forgottenAt, hget⟩

theorem MatchesUser.of_kept (hmatches : MatchesUser before item) (hkept : Kept before after) :
    MatchesUser after item := by
  obtain ⟨turn, user, hturn, hmem, huser, hname, hstate⟩ := hmatches
  obtain ⟨forgottenAt, hget⟩ := hkept user.id user (Table.get_of_mem hmem)
  exact ⟨turn, _, hturn, Table.mem_of_get hget, huser, hname, hstate⟩

/-- What a successful creation has checked and done. -/
theorem createSourceItemWithPackages_eq_ok {packageNames skipPackages : List String} {now : ℤ}
    (hcreated : storage.createSourceItemWithPackages rules item packageNames skipPackages now =
      .ok after) :
    (∀ turn, item.isUserOf turn → ∀ other ∈ storage.sourceItems.rows,
        other.isUserOf turn = false) ∧
      storage.findSourceItem item.sourceType item.sourceId = none ∧
      storage.sourceItems.insertNew item.record = some after.sourceItems ∧
      after.indexEntries = storage.indexEntries ∧ after.lexicalRows = storage.lexicalRows := by
  unfold Storage.createSourceItemWithPackages at hcreated
  split at hcreated
  · cases hcreated
  · next hturn =>
      split at hcreated
      · cases hcreated
      · next hfree =>
          cases hinsert : storage.sourceItems.insertNew item.record with
          | none =>
            rw [hinsert] at hcreated
            cases hcreated
          | some sourceItems =>
            rw [hinsert] at hcreated
            simp only at hcreated
            split at hcreated
            · cases hcreated
            · cases hcreated
              refine ⟨fun turn huser other hmem => ?_, ?_, rfl, rfl, rfl⟩
              · apply Bool.eq_false_iff.mpr
                intro hother
                apply hturn
                simp only [SourceItem.isUserOf, Bool.and_eq_true, beq_iff_eq] at huser
                rw [huser.2, Option.any_some, huser.1, Bool.and_eq_true, List.any_eq_true]
                exact ⟨beq_self_eq_true _, other, hmem, hother⟩
              · exact Option.not_isSome_iff_eq_none.mp hfree

theorem kept_of_insertNew {sourceItems : Table SourceItem}
    (hinsert : before.sourceItems.insertNew item = some sourceItems)
    (hafter : after.sourceItems = sourceItems) : Kept before after := by
  intro sourceItemId other hget
  refine ⟨other.forgottenAt, ?_⟩
  rw [hafter, Table.get_insertNew hinsert, if_neg]
  · exact hget
  · rintro rfl
    rw [Table.get_eq_none_of_insertNew hinsert] at hget
    cases hget

/-- A request leaves the items as they are, or it has created one. -/
theorem answer_cases (request : Request) (storage : Storage) :
    ((answer rules request storage).1.sourceItems = storage.sourceItems ∧
      (answer rules request storage).1.workRefs = storage.workRefs) ∨
    ∃ item packageNames skipPackages now,
      request = .createSourceItemWithPackages item packageNames skipPackages now ∧
      storage.createSourceItemWithPackages rules item packageNames skipPackages now =
        .ok (answer rules request storage).1 := by
  cases request with
  | createSourceItemWithPackages item packageNames skipPackages now =>
    simp only [answer]
    cases hcreated : storage.createSourceItemWithPackages rules item packageNames skipPackages now with
    | error error => exact Or.inl ⟨rfl, rfl⟩
    | ok after => exact Or.inr ⟨item, packageNames, skipPackages, now, rfl, hcreated⟩
  | createIndexEntry entry =>
    simp only [answer, Storage.createIndexEntry]
    cases storage.indexEntries.insertNew entry with
    | none => exact Or.inl ⟨rfl, rfl⟩
    | some indexEntries => exact Or.inl ⟨rfl, rfl⟩
  | _ => exact Or.inl ⟨rfl, rfl⟩

theorem answer_kept (request : Request) (storage : Storage) :
    Kept storage (answer rules request storage).1 := by
  rcases answer_cases request storage with ⟨hsame, -⟩ | ⟨_, _, _, _, -, hcreated⟩
  · exact Kept.of_eq hsame
  · exact kept_of_insertNew (createSourceItemWithPackages_eq_ok hcreated).2.2.1 rfl

theorem Forget.kept (forget : Forget) (storage : Storage) : Kept storage (forget.apply storage) := by
  intro sourceItemId item hget
  cases forget with
  | sourceItem forgottenId forgottenAt =>
    change ∃ forgottenAt, (Table.modify _ _ _).get sourceItemId = some _
    rw [Table.get_modify _ _ (by intro row; rfl), hget, Option.map_some]
    split
    · exact ⟨_, rfl⟩
    · exact ⟨item.forgottenAt, rfl⟩
  | sourceScope scope forgottenAt =>
    change ∃ forgottenAt, (Table.updateAll _ _).get sourceItemId = some _
    rw [Table.get_updateAll, hget, Option.map_some]
    · split
      · exact ⟨_, rfl⟩
      · exact ⟨item.forgottenAt, rfl⟩
    · intro row
      split
      · rfl
      · rfl

theorem Forget.origin {forget : Forget} (hmem : item ∈ (forget.apply storage).sourceItems.rows) :
    ∃ origin ∈ storage.sourceItems.rows, ∃ forgottenAt, item = { origin with forgottenAt } := by
  cases forget with
  | sourceItem forgottenId forgottenAt =>
    change item ∈ (Table.modify _ _ _).rows at hmem
    rw [Table.modify, Table.rows_updateAll] at hmem
    · obtain ⟨origin, horigin, rfl⟩ := List.mem_map.mp hmem
      refine ⟨origin, horigin, ?_⟩
      split
      · exact ⟨_, rfl⟩
      · exact ⟨origin.forgottenAt, rfl⟩
    · intro row
      split
      · rfl
      · rfl
  | sourceScope scope forgottenAt =>
    change item ∈ (Table.updateAll _ _).rows at hmem
    rw [Table.rows_updateAll] at hmem
    · obtain ⟨origin, horigin, rfl⟩ := List.mem_map.mp hmem
      refine ⟨origin, horigin, ?_⟩
      split
      · exact ⟨_, rfl⟩
      · exact ⟨origin.forgottenAt, rfl⟩
    · intro row
      split
      · rfl
      · rfl

end Stability

section Invariant

variable {rules : WorkRefRules} {storage after : Storage} {item : SourceItem}

theorem AttributionInvariant.empty : AttributionInvariant Storage.empty where
  unique _ _ _ hmem := absurd hmem (List.not_mem_nil)
  matched _ hmem := absurd hmem (List.not_mem_nil)

variable (hinvariant : AttributionInvariant storage)
include hinvariant

theorem AttributionInvariant.of_eq
    (hsame : after.sourceItems = storage.sourceItems) : AttributionInvariant after where
  unique turn first second hfirst hsecond := by
    rw [hsame] at hfirst hsecond
    exact hinvariant.unique turn first second hfirst hsecond
  matched item hmem hkeyed := by
    rw [hsame] at hmem
    exact (hinvariant.matched item hmem hkeyed).of_kept (Kept.of_eq hsame)

theorem AttributionInvariant.forgets
    (forget : Forget) : AttributionInvariant (forget.apply storage) where
  unique turn first second hfirst hsecond huser hother := by
    obtain ⟨origin, horigin, forgottenAt, rfl⟩ := Forget.origin hfirst
    obtain ⟨origin', horigin', forgottenAt', rfl⟩ := Forget.origin hsecond
    obtain rfl := hinvariant.unique turn origin origin' horigin horigin' huser hother
    have hleft := Table.get_of_mem hfirst
    have hright := Table.get_of_mem hsecond
    exact Option.eq_some_unique hleft hright
  matched item hmem hkeyed := by
    obtain ⟨origin, horigin, forgottenAt, rfl⟩ := Forget.origin hmem
    exact (hinvariant.matched origin horigin hkeyed).of_kept (forget.kept storage)

theorem AttributionInvariant.created {packageNames skipPackages : List String} {now : ℤ}
    (hcreated : storage.createSourceItemWithPackages rules item packageNames skipPackages now =
      .ok after)
    (hattributed : item.keyedAssistant → MatchesUser storage item) :
    AttributionInvariant after := by
  obtain ⟨hturn, -, hinsert, -, -⟩ := createSourceItemWithPackages_eq_ok hcreated
  have hkept : Kept storage after := kept_of_insertNew hinsert rfl
  have hrows : ∀ other ∈ after.sourceItems.rows, other = item.record ∨ other ∈ storage.sourceItems.rows := by
    intro other hmem
    have hget := Table.get_of_mem hmem
    rw [Table.get_insertNew hinsert] at hget
    split at hget
    · exact Or.inl (Option.some.inj hget).symm
    · exact Or.inr (Table.mem_of_get hget)
  refine ⟨fun turn first second hfirst hsecond huser hother => ?_, fun other hmem hkeyed => ?_⟩
  · rcases hrows first hfirst with rfl | hfirst
    · rcases hrows second hsecond with rfl | hsecond
      · rfl
      · rw [hturn turn huser second hsecond] at hother
        cases hother
    · rcases hrows second hsecond with rfl | hsecond
      · rw [hturn turn hother first hfirst] at huser
        cases huser
      · exact hinvariant.unique turn first second hfirst hsecond huser hother
  · rcases hrows other hmem with rfl | hold
    · exact (hattributed hkeyed).of_kept hkept
    · exact (hinvariant.matched other hold hkeyed).of_kept hkept

theorem AttributionInvariant.answered {request : Request} (hallowed : Attributed request storage) :
    AttributionInvariant (answer rules request storage).1 := by
  rcases answer_cases request storage with ⟨hsame, -⟩ | ⟨_, _, _, _, rfl, hcreated⟩
  · exact hinvariant.of_eq hsame
  · exact hinvariant.created hcreated hallowed

end Invariant

section Programs

variable {rules : WorkRefRules} {storage : Storage} {setup : Setup} {draws : Draws}
  {request : IngestRequest} {containerRef : Option String} {attribution : Attribution}

variable {turn : TurnKey}

abbrev SafeIngest (rules : WorkRefRules) (program : IngestProgram) (storage : Storage) : Prop :=
  Safe (answer rules) AttributionInvariant Kept Attributed program storage

theorem safe_buildIngestResult (item : SourceItem) : SafeIngest rules (buildIngestResult item) storage :=
  Safe.ask fun _ _ _ => ⟨trivial, trivial⟩

theorem safe_buildSourceItemVectorEntry (item : SourceItem) {next : IngestProgram}
    (hnext : ∀ later, SafeIngest rules next later) :
    SafeIngest rules (buildSourceItemVectorEntry setup draws item next) storage := by
  unfold buildSourceItemVectorEntry
  split
  · exact hnext storage
  · intro later hlater hkept
    refine ⟨trivial, hnext later, ?_⟩
    simp only [answer]
    split
    · exact hnext _
    · exact hnext _
    · intro latest hlatest hstill
      exact ⟨trivial, hnext _, hnext _⟩

theorem safe_returnExisting (existing : SourceItem) :
    SafeIngest rules (returnExisting setup draws request containerRef attribution existing) storage := by
  unfold returnExisting
  split
  · trivial
  · apply safe_buildSourceItemVectorEntry
    exact fun later => safe_buildIngestResult existing

theorem findSourceTurnSnapshot_eq_some {prior : SourceItem}
    (hfound : storage.findSourceTurnSnapshot turn = .ok (some prior)) :
    prior ∈ storage.sourceItems.rows ∧ prior.isUserOf turn := by
  unfold Storage.findSourceTurnSnapshot at hfound
  split at hfound
  · cases hfound
  · next other hother =>
      cases hfound
      apply List.mem_filter.mp
      apply List.mem_of_mem_take
      rw [hother]
      exact List.mem_singleton_self prior
  · cases hfound

theorem safe_findSnapshot {next : Option SourceItem → IngestProgram}
    (hnone : ∀ later, SafeIngest rules (next none) later)
    (hsome : ∀ later prior, prior ∈ later.sourceItems.rows → prior.isUserOf turn →
      SafeIngest rules (next (some prior)) later) :
    SafeIngest rules (findSnapshot turn next) storage := by
  apply Safe.ask
  intro later _ _
  refine ⟨trivial, ?_⟩
  simp only [answer]
  cases hfound : later.findSourceTurnSnapshot turn with
  | error _ => trivial
  | ok snapshot =>
    cases snapshot with
    | none => exact hnone later
    | some prior =>
      obtain ⟨hmem, huser⟩ := findSourceTurnSnapshot_eq_some hfound
      exact hsome later prior hmem huser

theorem safe_recover (error : IntegrityError) :
    SafeIngest rules (recover request containerRef attribution error) storage := by
  apply Safe.ask
  intro later _ _
  refine ⟨trivial, ?_⟩
  split
  · split
    · trivial
    · exact safe_buildIngestResult _
  · split
    · split
      · apply safe_findSnapshot
        · exact fun _ => trivial
        · intro latest prior _ _
          simp only
          split
          · trivial
          · exact safe_buildIngestResult prior
      · trivial
    · trivial

/-- What an attribution says about an assistant row that is created from it. -/
def Settled (request : IngestRequest) (containerRef : Option String) (attribution : Attribution)
    (storage : Storage) : Prop :=
  ∀ setup draws requestedPackage activePackages skipPackages,
    (newSourceItem setup draws request containerRef attribution requestedPackage activePackages
      skipPackages).keyedAssistant →
    MatchesUser storage (newSourceItem setup draws request containerRef attribution
      requestedPackage activePackages skipPackages)

theorem Settled.of_kept {later : Storage}
    (hsettled : Settled request containerRef attribution storage) (hkept : Kept storage later) :
    Settled request containerRef attribution later :=
  fun setup draws requestedPackage activePackages skipPackages hkeyed =>
    (hsettled setup draws requestedPackage activePackages skipPackages hkeyed).of_kept hkept

theorem Settled.of_not (hnot : request.role ≠ some "assistant" ∨ attribution.sourceTurnId = none) :
    Settled request containerRef attribution storage := by
  intro setup draws requestedPackage activePackages skipPackages hkeyed
  obtain ⟨hrole, hturn⟩ := hkeyed
  rcases hnot with hother | hnone
  · exact absurd hrole hother
  · have hsome : attribution.sourceTurnId.isSome := hturn
    rw [hnone] at hsome
    cases hsome

theorem validTurn_eq_some (hturn : request.validTurn containerRef = some turn) :
    turn.sourceType = request.sourceType ∧ containerRef = some turn.containerRef ∧
      request.threadRef = some turn.threadRef ∧
      request.sourceTurnId = some turn.sourceTurnId := by
  unfold IngestRequest.validTurn at hturn
  split at hturn
  · next sourceTurnId container thread hid hthread =>
      split at hturn
      · rw [← Option.some.inj hturn]
        exact ⟨rfl, rfl, hthread, hid⟩
      · cases hturn
  · cases hturn

theorem Settled.of_prior {prior : SourceItem} (hturn : request.validTurn containerRef = some turn)
    (hmem : prior ∈ storage.sourceItems.rows) (huser : prior.isUserOf turn) :
    Settled request containerRef
      ⟨true, some turn.sourceTurnId, prior.relayName, prior.relayAttributionState, some prior⟩
      storage := by
  intro setup draws requestedPackage activePackages skipPackages _
  obtain ⟨htype, hcontainer, hthread, -⟩ := validTurn_eq_some hturn
  refine ⟨turn, prior, ?_, hmem, huser, rfl, rfl⟩
  simp only [SourceItem.turnKey, newSourceItem, hcontainer, hthread, Option.bind_some,
    Option.map_some, ← htype]

theorem safe_resolveAttribution {next : Attribution → IngestProgram}
    (hnext : ∀ attribution later, Settled request containerRef attribution later →
      SafeIngest rules (next attribution) later) :
    SafeIngest rules (resolveAttribution request containerRef next) storage := by
  unfold resolveAttribution
  split
  · cases hturn : request.validTurn containerRef with
    | none => exact hnext _ _ (Settled.of_not (Or.inr rfl))
    | some turn =>
      apply safe_findSnapshot
      · intro later
        simp only
        split
        · next hrole =>
            apply hnext
            apply Settled.of_not
            rw [hrole]
            exact Or.inl (by decide)
        · trivial
      · intro later prior hmem huser
        simp only
        split
        · next hrole =>
            split
            · trivial
            · split
              · trivial
              · apply hnext
                apply Settled.of_not
                rw [hrole]
                exact Or.inl (by decide)
        · split
          · trivial
          · exact hnext _ _ (Settled.of_prior hturn hmem huser)
  · exact hnext _ _ (Settled.of_not (Or.inr rfl))

theorem safe_createItem (hsettled : Settled request containerRef attribution storage) :
    SafeIngest rules (createItem setup draws request containerRef attribution) storage := by
  unfold createItem
  simp only
  split
  · trivial
  · apply Safe.ask
    intro later _ hkept
    refine ⟨hsettled.of_kept hkept _ _ _ _ _, ?_⟩
    split
    · exact safe_recover _
    · apply Safe.ask
      intro latest _ _
      refine ⟨trivial, ?_⟩
      split
      · trivial
      · apply safe_buildSourceItemVectorEntry
        intro final
        apply Safe.ask
        intro last _ _
        refine ⟨trivial, ?_⟩
        split
        · trivial
        · exact safe_buildIngestResult _

theorem safe_ingestItem (setup : Setup) (draws : Draws) (request : IngestRequest)
    (storage : Storage) : SafeIngest rules (ingestItem setup draws request) storage := by
  unfold ingestItem
  apply safe_resolveAttribution
  intro attribution later hsettled
  apply Safe.ask
  intro latest _ hkept
  refine ⟨trivial, ?_⟩
  simp only [answer]
  split
  · exact safe_returnExisting _
  · split
    · split
      · exact safe_buildIngestResult _
      · exact safe_createItem (hsettled.of_kept hkept)
    · exact safe_createItem (hsettled.of_kept hkept)

end Programs

section Histories

variable {setup : Setup} {current : History}

abbrev SafeHistory (rules : WorkRefRules) (current : History) : Prop :=
  AllSafe (answer rules) AttributionInvariant Kept Attributed current

theorem HistoryOp.step_safe (hcurrent : SafeHistory setup.toWorkRefRules current) (op : HistoryOp) :
    SafeHistory setup.toWorkRefRules (op.step setup current) ∧ Kept current.state (op.step setup current).state := by
  apply AllSafe.step
  · exact Kept.refl
  · exact fun _ _ _ => Kept.trans
  · exact fun request storage hinvariant hallowed =>
      ⟨hinvariant.answered hallowed, answer_kept request storage⟩
  · exact fun forget storage hinvariant => ⟨hinvariant.forgets forget, forget.kept storage⟩
  · exact hcurrent
  · intro program hstarts storage _
    cases op with
    | ingest draws request =>
      cases hstarts
      exact safe_ingestItem setup draws request storage
    | _ => cases hstarts

theorem history_safe (setup : Setup) (ops : List HistoryOp) :
    SafeHistory setup.toWorkRefRules (history setup ops) := by
  apply run_invariant
  · exact ⟨AttributionInvariant.empty, List.forall_mem_nil _⟩
  · exact fun current op hcurrent => (HistoryOp.step_safe hcurrent op).1

theorem run_kept (hcurrent : SafeHistory setup.toWorkRefRules current) (ops : List HistoryOp) :
    Kept current.state (run (HistoryOp.step setup) current ops).state := by
  induction ops generalizing current with
  | nil => exact Kept.refl _
  | cons op rest ih =>
    obtain ⟨hnext, hkept⟩ := @HistoryOp.step_safe setup current hcurrent op
    exact hkept.trans (ih hnext)

/-- Attribution in every history of ingests and forgets.  A turn has at most one
user row, no row is relabelled, and an assistant row with a turn id carries the
name and the state of the user row of its turn. -/
theorem source_turn_attribution (setup : Setup) (ops more : List HistoryOp) :
    (∀ turn first second, first ∈ (history setup ops).state.sourceItems.rows →
        second ∈ (history setup ops).state.sourceItems.rows →
        first.isUserOf turn → second.isUserOf turn → first = second) ∧
      (∀ sourceItemId item,
        (history setup ops).state.sourceItems.get sourceItemId = some item →
        ∃ later, (history setup (ops ++ more)).state.sourceItems.get sourceItemId = some later ∧
          later.relayName = item.relayName ∧
          later.relayAttributionState = item.relayAttributionState) ∧
      ∀ item ∈ (history setup ops).state.sourceItems.rows, item.role = some "assistant" →
        item.sourceTurnId.isSome → ∃ turn user, item.turnKey = some turn ∧
          user ∈ (history setup ops).state.sourceItems.rows ∧ user.isUserOf turn ∧
          user.relayName = item.relayName ∧
          user.relayAttributionState = item.relayAttributionState := by
  have hsafe := history_safe setup ops
  refine ⟨hsafe.state.unique, fun sourceItemId item hget => ?_, fun item hmem hrole hturn => ?_⟩
  · have hkept : Kept (history setup ops).state (history setup (ops ++ more)).state := by
      rw [history, history, run_append]
      exact run_kept hsafe more
    obtain ⟨forgottenAt, hlater⟩ := hkept sourceItemId item hget
    exact ⟨_, hlater, rfl, rfl⟩
  · exact hsafe.state.matched item hmem ⟨hrole, hturn⟩

end Histories

end Pallium.Ingest
