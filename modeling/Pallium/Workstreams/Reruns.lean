import Pallium.Workstreams.Batches

/-!
# Running an assignment again

A second run of the same items meets a registry that has all the signals of the first.
An item finds its workstream again if no other one has come to share its signals, and an
item without signals finds the one that its thread touched before it.
-/

namespace Pallium.Workstreams

section Values

variable (host : Host) (signals : ItemSignals) (record : WorkstreamRecord)

/-- The values of an item that the cascade compares, under their kinds. -/
def ItemSignals.compared : Set (Kind × List String) :=
  {value | match value.1 with
    | .workRefs => ∃ text ∈ signals.workRefs, value.2 = [text]
    | .fileDirs => ∃ text ∈ signals.fileDirs, value.2 = [text]
    | .symbols => ∃ text ∈ signals.symbols, value.2 = [text]
    | .titleNgrams => value.2 ∈ signals.titleNgrams host
    | .anchors => ∃ text ∈ signals.anchors, value.2 = [text]}

/-- The values of a workstream. -/
def WorkstreamRecord.compared : Set (Kind × List String) :=
  {value | match value.1 with
    | .workRefs => ∃ text ∈ record.workRefs, value.2 = [text]
    | .fileDirs => ∃ text ∈ record.fileDirs, value.2 = [text]
    | .symbols => ∃ text ∈ record.symbols, value.2 = [text]
    | .titleNgrams => value.2 ∈ record.titleNgrams
    | .anchors => ∃ text ∈ record.anchors, value.2 = [text]}

/-- The item has a value that is compared. -/
def ItemSignals.comparable : Bool :=
  signals.workRefs ≠ ∅ || signals.fileDirs ≠ ∅ || signals.symbols ≠ ∅ ||
    signals.titleNgrams host ≠ ∅ || signals.anchors ≠ ∅

/-- The item shares a compared value with the workstream. -/
def WorkstreamRecord.shares : Bool := Kind.all.any fun kind => record.overlaps host signals kind

variable {host signals record}

theorem singles_meet {left right : Finset String} :
    (left ∩ right).Nonempty ↔
      ∃ value : List String, (∃ text ∈ left, value = [text]) ∧ ∃ text ∈ right, value = [text] := by
  simp only [Finset.Nonempty, Finset.mem_inter]
  constructor
  · rintro ⟨text, hleft, hright⟩
    exact ⟨[text], ⟨text, hleft, rfl⟩, text, hright, rfl⟩
  · rintro ⟨value, ⟨text, hleft, rfl⟩, other, hright, ⟨⟩⟩
    exact ⟨text, hleft, hright⟩

theorem overlaps_iff {kind : Kind} :
    record.overlaps host signals kind = true ↔
      ∃ value, (kind, value) ∈ signals.compared host ∧ (kind, value) ∈ record.compared := by
  cases kind with
  | titleNgrams =>
    refine decide_eq_true_iff.trans (exists_congr fun value => ?_)
    exact Finset.mem_inter
  | _ => exact decide_eq_true_iff.trans singles_meet

theorem shares_iff :
    record.shares host signals = true ↔
      (signals.compared host ∩ record.compared).Nonempty := by
  rw [WorkstreamRecord.shares, List.any_eq_true]
  constructor
  · rintro ⟨kind, -, hoverlaps⟩
    obtain ⟨value, hitem, hrecord⟩ := overlaps_iff.mp hoverlaps
    exact ⟨(kind, value), hitem, hrecord⟩
  · rintro ⟨⟨kind, value⟩, hitem, hrecord⟩
    exact ⟨kind, kind.mem_all, overlaps_iff.mpr ⟨value, hitem, hrecord⟩⟩

theorem comparable_iff : signals.comparable host = true ↔ (signals.compared host).Nonempty := by
  have hsingles : ∀ values : Finset String,
      (∃ value : List String, ∃ text ∈ values, value = [text]) ↔ values ≠ ∅ := by
    intro values
    rw [← Finset.nonempty_iff_ne_empty]
    exact ⟨fun ⟨_, text, hmem, _⟩ => ⟨text, hmem⟩, fun ⟨text, hmem⟩ => ⟨[text], text, hmem, rfl⟩⟩
  have hsplit : (signals.compared host).Nonempty ↔
      ∃ kind value, (kind, value) ∈ signals.compared host :=
    ⟨fun ⟨⟨kind, value⟩, hmem⟩ => ⟨kind, value, hmem⟩,
      fun ⟨kind, value, hmem⟩ => ⟨(kind, value), hmem⟩⟩
  rw [hsplit, ItemSignals.comparable]
  simp only [Bool.or_eq_true, decide_eq_true_eq, or_assoc]
  constructor
  · rintro (h | h | h | h | h)
    · exact ⟨.workRefs, (hsingles _).mpr h⟩
    · exact ⟨.fileDirs, (hsingles _).mpr h⟩
    · exact ⟨.symbols, (hsingles _).mpr h⟩
    · exact ⟨.titleNgrams, Finset.nonempty_iff_ne_empty.mpr h⟩
    · exact ⟨.anchors, (hsingles _).mpr h⟩
  · rintro ⟨kind, hvalue⟩
    cases kind with
    | workRefs => exact Or.inl ((hsingles _).mp hvalue)
    | fileDirs => exact Or.inr (Or.inl ((hsingles _).mp hvalue))
    | symbols => exact Or.inr (Or.inr (Or.inl ((hsingles _).mp hvalue)))
    | titleNgrams =>
      exact Or.inr (Or.inr (Or.inr (Or.inl (Finset.nonempty_iff_ne_empty.mp hvalue))))
    | anchors => exact Or.inr (Or.inr (Or.inr (Or.inr ((hsingles _).mp hvalue))))

theorem WorkstreamRecord.compared_attach (threadRef : Option String) (createdAt : ℤ) :
    (record.attach host signals threadRef createdAt).compared =
      record.compared ∪ signals.compared host := by
  ext ⟨kind, value⟩
  cases kind <;>
    simp [compared, ItemSignals.compared, attach, mergeSignals, or_and_right, exists_or]

theorem not_stronglyDisagrees (hnone : signals.comparable host = false) :
    record.stronglyDisagrees signals = false := by
  simp only [ItemSignals.comparable, Bool.or_eq_false_iff, decide_eq_false_iff_not, not_not]
    at hnone
  simp [WorkstreamRecord.stronglyDisagrees, WorkstreamRecord.disjointSets, hnone]

end Values

section Sights

variable {host : Host} {scope : Scope} {signals : ItemSignals} {threadRef : Option String}
  {createdAt : ℤ} {registry after : Registry} {result : AssignmentResult}

variable {workstreamId : String}

/-- What a replay looks at: the compared values and the last touch. -/
def WorkstreamRecord.sight (record : WorkstreamRecord) :
    Set (Kind × List String) × Option String × ℤ :=
  (record.compared, record.lastTouchedThread, record.lastTouchedAt)

theorem WorkstreamRecord.sight_expire (now : ℤ) (record : WorkstreamRecord) :
    (record.expire scope now).sight = record.sight := by
  rw [expire]
  split <;> rfl

/-- The compared values under an id. -/
def Registry.valuesAt (registry : Registry) (workstreamId : String) : Set (Kind × List String) :=
  {value | ∃ record, registry.get workstreamId = some record ∧ value ∈ record.compared}

variable {record : WorkstreamRecord}

theorem Registry.valuesAt_of_get (hget : registry.get workstreamId = some record) :
    registry.valuesAt workstreamId = record.compared := by
  ext value
  rw [valuesAt, hget]
  exact ⟨fun ⟨other, hsame, hvalue⟩ => Option.some.inj hsame ▸ hvalue,
    fun hvalue => ⟨record, rfl, hvalue⟩⟩

theorem Registry.valuesAt_of_none (hnone : registry.get workstreamId = none) :
    registry.valuesAt workstreamId = ∅ := by
  refine Set.eq_empty_iff_forall_notMem.mpr fun value hvalue => ?_
  obtain ⟨record, hget, -⟩ := hvalue
  rw [hnone] at hget
  cases hget

theorem Registry.mem_valuesAt {value : Kind × List String} :
    value ∈ registry.valuesAt workstreamId ↔
      ∃ sight, (registry.get workstreamId).map WorkstreamRecord.sight = some sight ∧
        value ∈ sight.1 := by
  constructor
  · rintro ⟨record, hget, hvalue⟩
    exact ⟨record.sight, by rw [hget, Option.map_some], hvalue⟩
  · rintro ⟨sight, hsight, hvalue⟩
    obtain ⟨record, hget, rfl⟩ := Option.map_eq_some_iff.mp hsight
    exact ⟨record, hget, hvalue⟩

/-- The workstreams after an assignment: the assigned one was touched and has the values of
the item. -/
theorem sight_assigned
    (hassign : assignWorkstreamForItem host scope signals threadRef createdAt registry =
      some (after, result))
    (hfresh : result.stage = .openNew → registry.get result.workstreamId = none)
    (workstreamId : String) :
    (after.get workstreamId).map WorkstreamRecord.sight =
      if workstreamId = result.workstreamId ∧ result.stage ≠ .unknownPseudoId then
        some (registry.valuesAt workstreamId ∪ signals.compared host, threadRef, createdAt)
      else (registry.get workstreamId).map WorkstreamRecord.sight := by
  have hclosed : ((registry.close scope createdAt).get workstreamId).map WorkstreamRecord.sight =
      (registry.get workstreamId).map WorkstreamRecord.sight := by
    rw [Registry.get_close, Option.map_map]
    exact congrArg (fun view => (registry.get workstreamId).map view)
      (funext (WorkstreamRecord.sight_expire createdAt))
  rcases assign_cases hassign with ⟨hchoose, rfl⟩ | ⟨-, -, hstage, rfl⟩ | ⟨-, -, hstage, rfl⟩
  · obtain ⟨hknown, -, joined, hjoined, hjoinedId⟩ := of_choose_attach hchoose
    rw [get_attached]
    by_cases hid : workstreamId = result.workstreamId
    · rw [if_pos hid, if_pos ⟨hid, hknown⟩]
      have hmem := ((Registry.mem_openRecords scope createdAt).mp hjoined).1
      rw [Registry.rows_close] at hmem
      obtain ⟨old, hold, rfl⟩ := List.mem_map.mp hmem
      have hget : registry.get workstreamId = some old := by
        rw [hid, ← hjoinedId, WorkstreamRecord.workstreamId_expire]
        exact Table.get_of_mem hold
      rw [Registry.get_close, hget, Option.map_some, Option.map_some, Option.map_some,
        Registry.valuesAt_of_get hget, WorkstreamRecord.sight, WorkstreamRecord.compared_attach]
      have hsame : (old.expire scope createdAt).compared = old.compared :=
        congrArg Prod.fst (old.sight_expire createdAt)
      rw [hsame]
      rfl
    · rw [if_neg hid, if_neg fun h => hid h.1, hclosed]
  · rw [Table.get_set]
    by_cases hid : workstreamId = result.workstreamId
    · have hself : workstreamId = key (openedRecord host scope signals threadRef createdAt
          result.workstreamId) := hid
      rw [if_pos hself, if_pos ⟨hid, by rw [hstage]; decide⟩, hid,
        Registry.valuesAt_of_none (hfresh hstage), Set.empty_union]
      rfl
    · have hother : workstreamId ≠ key (openedRecord host scope signals threadRef createdAt
          result.workstreamId) := hid
      rw [if_neg hother, if_neg fun h => hid h.1, hclosed]
  · rw [if_neg fun h => h.2 hstage, hclosed]

theorem mem_openRecords_of_live {now : ℤ} (hexpired : Expired now registry)
    (hnow : now ≤ createdAt) (hmem : record ∈ registry.rows)
    (hscope : record.scope = scope) (hlive : createdAt - openWindow ≤ record.lastTouchedAt) :
    record ∈ registry.openRecords scope createdAt := by
  have hstill : record.expire scope createdAt = record :=
    if_neg fun hlate => absurd hlate.2 (not_lt.mpr hlive)
  have hopen : record.closed = false := by
    cases hclosed : record.closed with
    | false => rfl
    | true =>
      have hlate := hexpired record hmem hclosed
      have hless := Int.sub_le_sub_right hnow openWindow
      exact absurd (lt_of_lt_of_le hlate hless) (not_lt.mpr hlive)
  rw [Registry.mem_openRecords, Registry.rows_close]
  exact ⟨List.mem_map.mpr ⟨record, hmem, hstill⟩, hscope, hopen⟩

theorem of_mem_openRecords (hmem : record ∈ registry.openRecords scope createdAt) :
    ∃ old ∈ registry.rows, record.sight = old.sight ∧ record.workstreamId = old.workstreamId ∧
      createdAt - openWindow ≤ old.lastTouchedAt := by
  obtain ⟨hclosed, hscope, hopen⟩ := (Registry.mem_openRecords scope createdAt).mp hmem
  rw [Registry.rows_close] at hclosed
  obtain ⟨old, hold, rfl⟩ := List.mem_map.mp hclosed
  refine ⟨old, hold, old.sight_expire createdAt, old.workstreamId_expire scope createdAt, ?_⟩
  by_contra hlate
  rw [WorkstreamRecord.scope_expire] at hscope
  rw [WorkstreamRecord.expire, if_pos ⟨hscope, not_le.mp hlate⟩] at hopen
  cases hopen

theorem shares_congr {left right : WorkstreamRecord} (hsame : left.compared = right.compared) :
    left.shares host signals = right.shares host signals := by
  rw [Bool.eq_iff_iff, shares_iff, shares_iff, hsame]

/-- An item that shares values with one workstream, which is open, joins it. -/
theorem choose_of_shared (threadRef : Option String) {now : ℤ} (hexpired : Expired now registry) (hnow : now ≤ createdAt)
    (hscope : ∀ record ∈ registry.rows, record.scope = scope)
    (hmem : record ∈ registry.rows) (hshares : record.shares host signals = true)
    (hlive : createdAt - openWindow ≤ record.lastTouchedAt)
    (halone : ∀ other ∈ registry.rows, other.shares host signals = true →
      other.workstreamId = record.workstreamId) :
    ∃ kind : Kind, choose host signals threadRef createdAt
      (registry.openRecords scope createdAt) = .attach kind.stage record.workstreamId := by
  have hopen := mem_openRecords_of_live hexpired hnow hmem (hscope record hmem) hlive
  cases hfound : findOverlap host signals (registry.openRecords scope createdAt) with
  | none =>
    rw [findOverlap_eq_none_iff] at hfound
    obtain ⟨kind, -, hoverlaps⟩ := List.any_eq_true.mp hshares
    rw [hfound kind record hopen] at hoverlaps
    cases hoverlaps
  | some found =>
    obtain ⟨kind, joined⟩ := found
    obtain ⟨hjoined, hoverlaps⟩ := of_findOverlap hfound
    obtain ⟨old, hold, hsight, hid, -⟩ := of_mem_openRecords hjoined
    have hjoinedShares : joined.shares host signals = true :=
      List.any_eq_true.mpr ⟨kind, kind.mem_all, hoverlaps⟩
    rw [shares_congr (congrArg Prod.fst hsight)] at hjoinedShares
    refine ⟨kind, ?_⟩
    rw [choose_of_overlap hfound, hid, halone old hold hjoinedShares]

end Sights

section First

variable (host : Host) (scope : Scope)

/-- An item that a second run finds again: it shares values with one workstream at most, and
only with an open one; it joins none because the most recent one has all its signals; and
what it opens is new and has a value that is compared. -/
def Repeatable (progress : Progress) (offered : SignalledItem) : Prop :=
  (∀ record ∈ progress.registry.rows, record.shares host offered.signals = true →
    offered.item.createdAt - openWindow ≤ record.lastTouchedAt ∧
      ∀ other ∈ progress.registry.rows, other.shares host offered.signals = true →
        other.workstreamId = record.workstreamId) ∧
  match choose host offered.signals offered.item.threadRef offered.item.createdAt
      (progress.registry.openRecords scope offered.item.createdAt) with
  | .attach stage _ => stage ≠ .selfRefAttach
  | .openNew => offered.signals.comparable host = true ∧
      ∀ workstreamId ∈ offered.signals.resolvedId host,
        progress.registry.get workstreamId = none ∧
          progress.database.workstreams.get workstreamId = none
  | .unknown => True

instance (progress : Progress) (offered : SignalledItem) :
    Decidable (Repeatable host scope progress offered) := by
  unfold Repeatable
  refine @instDecidableAnd _ _ inferInstance ?_
  generalize choose host offered.signals offered.item.threadRef offered.item.createdAt
    (progress.registry.openRecords scope offered.item.createdAt) = choice
  exact choice.casesOn (fun stage _ => inferInstanceAs (Decidable (stage ≠ .selfRefAttach)))
    (inferInstanceAs (Decidable (_ ∧ _))) instDecidableTrue

/-- Every item is found again where the first run meets it. -/
def RepeatableItems (progress : Progress) : List SignalledItem → Prop
  | [] => True
  | offered :: rest => Repeatable host scope progress offered ∧
      ∀ next ∈ assignItem host scope progress offered, RepeatableItems next rest

instance decidableRepeatableItems : ∀ (progress : Progress) (items : List SignalledItem),
    Decidable (RepeatableItems host scope progress items)
  | _, [] => isTrue trivial
  | progress, offered :: rest =>
    have := fun next => decidableRepeatableItems next rest
    inferInstanceAs (Decidable (Repeatable host scope progress offered ∧
      ∀ next ∈ assignItem host scope progress offered, RepeatableItems host scope next rest))

/-- What holds of a first run. -/
structure First (now : ℤ) (progress : Progress) : Prop where
  loaded : Loaded host scope progress
  expired : Expired now progress.registry

/-- The workstream has the values of the item, and no other one shares any. -/
structure Owns (signals : ItemSignals) (workstreamId : String) (registry : Registry) : Prop where
  covered : signals.compared host ⊆ registry.valuesAt workstreamId
  alone : ∀ record ∈ registry.rows, record.shares host signals = true →
    record.workstreamId = workstreamId

variable {host scope} {now : ℤ} {progress next : Progress} {offered : SignalledItem}
  {after : Registry} {result : AssignmentResult} {signals : ItemSignals}

theorem hasAnyStrong_of_comparable
    (hcomparable : signals.comparable host = true) : signals.hasAnyStrong = true := by
  by_contra hweak
  simp only [ItemSignals.hasAnyStrong, Bool.or_eq_true, decide_eq_true_eq, not_or, not_not]
    at hweak
  obtain ⟨⟨⟨⟨⟨hworkRefs, hfilePaths⟩, hsymbols⟩, -⟩, htitles⟩, hanchors⟩ := hweak
  simp [ItemSignals.comparable, ItemSignals.fileDirs, ItemSignals.titleNgrams, hworkRefs,
    hfilePaths, hsymbols, htitles, hanchors] at hcomparable

theorem of_choose_unknown {threadRef : Option String} {createdAt : ℤ}
    {opened : List WorkstreamRecord}
    (hchoose : choose host signals threadRef createdAt opened = .unknown) :
    signals.hasAnyStrong = false := by
  rcases choose_cases host signals threadRef createdAt opened with
    ⟨_, _, -, -, -, hattach⟩ | halone
  · cases hattach.symm.trans hchoose
  · rw [halone, chooseAlone] at hchoose
    cases hstrong : signals.hasAnyStrong with
    | false => rfl
    | true =>
      rw [hstrong, if_pos rfl] at hchoose
      cases hhead : opened.head? with
      | none =>
        rw [hhead] at hchoose
        cases hchoose
      | some mostRecent =>
        simp only [hhead] at hchoose
        split at hchoose <;> cases hchoose

theorem Repeatable.opensAtHome (hrepeatable : Repeatable host scope progress offered) :
    OpensAtHome host scope progress offered := by
  intro hchoose workstreamId hid
  have hopens := hrepeatable.2
  simp only [hchoose] at hopens
  rw [(hopens.2 workstreamId hid).2]
  rfl

theorem First.assignItem (hfirst : First host scope now progress)
    (hnow : now ≤ offered.item.createdAt)
    (hrepeatable : Repeatable host scope progress offered)
    (hnext : assignItem host scope progress offered = some next) :
    First host scope offered.item.createdAt next := by
  refine ⟨hfirst.loaded.assignItem hrepeatable.opensAtHome hnext, ?_⟩
  obtain ⟨registry, result, hassign, rfl⟩ := assignItem_eq_some hnext
  exact hfirst.expired.assigned hnow hassign

theorem First.scopes (hfirst : First host scope now progress) :
    ∀ record ∈ progress.registry.rows, record.scope = scope :=
  fun record hrecord => (hfirst.loaded.records record hrecord).1

/-- The touch of a workstream is no earlier than a time after which it was touched. -/
def TouchedSince (time : ℤ) (workstreamId : String) (registry : Registry) : Prop :=
  ∃ sight, (registry.get workstreamId).map WorkstreamRecord.sight = some sight ∧ time ≤ sight.2.2

section Assigned

variable (hassign : assignWorkstreamForItem host scope offered.signals offered.item.threadRef
  offered.item.createdAt progress.registry = some (after, result))
include hassign

theorem Repeatable.fresh (hrepeatable : Repeatable host scope progress offered)
    (hstage : result.stage = .openNew) :
    offered.signals.comparable host = true ∧
      progress.registry.get result.workstreamId = none ∧
        progress.database.workstreams.get result.workstreamId = none := by
  obtain ⟨hchoose, hid⟩ := opened_of_stage hassign hstage
  have hopens := hrepeatable.2
  simp only [hchoose] at hopens
  exact ⟨hopens.1, hopens.2 result.workstreamId hid⟩

/-- An item that shares values with a workstream was assigned to it. -/
theorem Repeatable.joined (hrepeatable : Repeatable host scope progress offered)
    (hfirst : First host scope now progress) (hnow : now ≤ offered.item.createdAt)
    {record : WorkstreamRecord} (hmem : record ∈ progress.registry.rows)
    (hshares : record.shares host offered.signals = true) :
    result.workstreamId = record.workstreamId := by
  obtain ⟨hlive, halone⟩ := hrepeatable.1 record hmem hshares
  obtain ⟨kind, hchoose⟩ := choose_of_shared offered.item.threadRef hfirst.expired
    hnow hfirst.scopes hmem hshares hlive halone
  rw [assign_attach hchoose, Option.some.injEq, Prod.mk.injEq] at hassign
  rw [← hassign.2]

/-- The record after an assignment, and where its values come from. -/
theorem of_mem_rows_assigned
    (hfresh : result.stage = .openNew → progress.registry.get result.workstreamId = none)
    {record : WorkstreamRecord} (hmem : record ∈ after.rows) :
    (record.workstreamId = result.workstreamId ∧ record.compared =
        progress.registry.valuesAt record.workstreamId ∪ offered.signals.compared host) ∨
      ∃ old ∈ progress.registry.rows, old.workstreamId = record.workstreamId ∧
        old.compared = record.compared := by
  have hsight := sight_assigned hassign hfresh record.workstreamId
  have hget : after.get record.workstreamId = some record := Table.get_of_mem hmem
  rw [hget, Option.map_some] at hsight
  split at hsight
  · next hid => exact Or.inl ⟨hid.1, congrArg Prod.fst (Option.some.inj hsight)⟩
  · obtain ⟨old, hold, hsame⟩ := Option.map_eq_some_iff.mp hsight.symm
    exact Or.inr ⟨old, Table.mem_of_get hold, Table.key_of_get hold, congrArg Prod.fst hsame⟩

/-- The values of the assigned workstream. -/
theorem valuesAt_assigned
    (hfresh : result.stage = .openNew → progress.registry.get result.workstreamId = none)
    (workstreamId : String) :
    after.valuesAt workstreamId =
      if workstreamId = result.workstreamId ∧ result.stage ≠ .unknownPseudoId then
        progress.registry.valuesAt workstreamId ∪ offered.signals.compared host
      else progress.registry.valuesAt workstreamId := by
  have hsight := sight_assigned hassign hfresh workstreamId
  ext value
  rw [Registry.mem_valuesAt, hsight]
  split
  · simp
  · exact Registry.mem_valuesAt.symm

/-- A workstream keeps an item's values to itself. -/
theorem Owns.assigned {workstreamId : String}
    (howns : Owns host signals workstreamId progress.registry)
    (hfirst : First host scope now progress) (hnow : now ≤ offered.item.createdAt)
    (hrepeatable : Repeatable host scope progress offered) :
    Owns host signals workstreamId after := by
  have hfresh := fun hstage => (hrepeatable.fresh hassign hstage).2.1
  constructor
  · refine howns.covered.trans ?_
    rw [valuesAt_assigned hassign hfresh]
    split
    · exact Set.subset_union_left
    · exact subset_refl _
  · intro record hrecord hshares
    rcases of_mem_rows_assigned hassign hfresh hrecord with ⟨hid, hvalues⟩ |
      ⟨old, hold, hid, hsame⟩
    · rw [shares_iff, hvalues] at hshares
      obtain ⟨value, hitem, hold | hadded⟩ := hshares
      · obtain ⟨old, hget, hvalue⟩ := hold
        have holdId : old.workstreamId = record.workstreamId := Table.key_of_get hget
        rw [← holdId]
        exact howns.alone old (Table.mem_of_get hget) (shares_iff.mpr ⟨value, hitem, hvalue⟩)
      · obtain ⟨owner, hget, hvalue⟩ := howns.covered hitem
        have hownerId : owner.workstreamId = workstreamId := Table.key_of_get hget
        rw [hid, hrepeatable.joined hassign hfirst hnow (Table.mem_of_get hget)
          (shares_iff.mpr ⟨value, hadded, hvalue⟩), hownerId]
    · rw [← hid]
      exact howns.alone old hold ((shares_congr hsame).trans hshares)

/-- An item with values gives them to the workstream that it is assigned. -/
theorem Repeatable.owns (hrepeatable : Repeatable host scope progress offered)
    (hfirst : First host scope now progress) (hnow : now ≤ offered.item.createdAt)
    (hcomparable : offered.signals.comparable host = true) :
    result.stage ≠ .unknownPseudoId ∧
      Owns host offered.signals result.workstreamId after := by
  have hfresh := fun hstage => (hrepeatable.fresh hassign hstage).2.1
  have hknown : result.stage ≠ .unknownPseudoId := by
    intro hstage
    have hweak := of_choose_unknown (unknown_of_stage hassign hstage).1
    rw [hasAnyStrong_of_comparable hcomparable] at hweak
    cases hweak
  refine ⟨hknown, ?_, fun record hrecord hshares => ?_⟩
  · rw [valuesAt_assigned hassign hfresh, if_pos ⟨rfl, hknown⟩]
    exact Set.subset_union_right
  · rcases of_mem_rows_assigned hassign hfresh hrecord with ⟨hid, -⟩ | ⟨old, hold, hid, hsame⟩
    · exact hid
    · rw [← hid]
      exact (hrepeatable.joined hassign hfirst hnow hold
        ((shares_congr hsame).trans hshares)).symm

theorem TouchedSince.assigned {time : ℤ} {workstreamId : String}
    (htouched : TouchedSince time workstreamId progress.registry)
    (htime : time ≤ offered.item.createdAt)
    (hfresh : result.stage = .openNew → progress.registry.get result.workstreamId = none) :
    TouchedSince time workstreamId after := by
  obtain ⟨sight, hsight, hsince⟩ := htouched
  rw [TouchedSince, sight_assigned hassign hfresh]
  split
  · exact ⟨_, rfl, htime⟩
  · exact ⟨sight, hsight, hsince⟩

end Assigned

/-- What the rest of the first run keeps. -/
theorem First.assignItems {items : List SignalledItem} (hfirst : First host scope now progress)
    (hnow : ∀ offered ∈ items, now ≤ offered.item.createdAt)
    (hordered : items.Pairwise fun left right => left.item.createdAt ≤ right.item.createdAt)
    (hrepeatable : RepeatableItems host scope progress items) :
    Loaded host scope (assignItems host scope progress items).1 ∧
    (∃ later, (assignItems host scope progress items).1.registry.rows.map key =
      progress.registry.rows.map key ++ later) ∧
    (∀ signals workstreamId, Owns host signals workstreamId progress.registry →
      Owns host signals workstreamId (assignItems host scope progress items).1.registry) ∧
    (∀ time workstreamId, TouchedSince time workstreamId progress.registry → time ≤ now →
      TouchedSince time workstreamId (assignItems host scope progress items).1.registry) ∧
    ∀ link ∈ progress.database.links.rows,
      link ∈ (assignItems host scope progress items).1.database.links.rows := by
  induction items generalizing now progress with
  | nil =>
    exact ⟨hfirst.loaded, ⟨[], (List.append_nil _).symm⟩, fun _ _ h => h, fun _ _ h _ => h,
      fun _ h => h⟩
  | cons offered rest ih =>
    obtain ⟨hitem, hrest⟩ := hrepeatable
    obtain ⟨hbefore, hlater⟩ := List.pairwise_cons.mp hordered
    have hoffered := hnow offered List.mem_cons_self
    rw [Workstreams.assignItems]
    cases hnext : Workstreams.assignItem host scope progress offered with
    | none =>
      exact ⟨hfirst.loaded, ⟨[], (List.append_nil _).symm⟩, fun _ _ h => h, fun _ _ h _ => h,
        fun _ h => h⟩
    | some next =>
      obtain ⟨hloaded, ⟨later, hkeys⟩, howns, htouched, hlinks⟩ :=
        ih (hfirst.assignItem hoffered hitem hnext) hbefore hlater (hrest next hnext)
      obtain ⟨registry, result, hassign, rfl⟩ := assignItem_eq_some hnext
      have hfresh := fun hstage => (hitem.fresh hassign hstage).2.1
      refine ⟨hloaded, ?_, fun signals workstreamId hown => ?_,
        fun time workstreamId hsince htime => ?_, fun link hlink => ?_⟩
      · have hassigned := keys_assigned hassign
        split at hassigned
        · exact ⟨result.workstreamId :: later, by rw [hkeys, hassigned, List.append_assoc]; rfl⟩
        · exact ⟨later, by rw [hkeys, hassigned]⟩
      · exact howns signals workstreamId (hown.assigned hassign hfirst hoffered hitem)
      · exact htouched time workstreamId
          (hsince.assigned hassign (le_trans htime hoffered) hfresh)
          (le_trans htime hoffered)
      · refine hlinks link ((links_insert _ _).1 link ?_)
        rw [links_recorded]
        exact hlink

end First

section Sorting

variable {α : Type*} {order : α → α → Prop} [DecidableRel order]

theorem orderedInsert_split (htrans : ∀ first second third,
    order first second → order second third → order first third) (item : α)
    {items : List α} (hsorted : items.Pairwise order) :
    (items.filter fun other => ¬ order item other) ++ items.filter (order item ·) = items ∧
      items.orderedInsert order item =
        (items.filter fun other => ¬ order item other) ++ item :: items.filter (order item ·) := by
  induction items with
  | nil => exact ⟨rfl, rfl⟩
  | cons head tail ih =>
    obtain ⟨hhead, htail⟩ := List.pairwise_cons.mp hsorted
    by_cases horder : order item head
    · have hall : ∀ other ∈ head :: tail, order item other := List.forall_mem_cons.mpr
        ⟨horder, fun other hother => htrans _ _ _ horder (hhead other hother)⟩
      rw [List.filter_eq_nil_iff.mpr (by simpa using hall),
        List.filter_eq_self.mpr (by simpa using hall), List.orderedInsert_cons_of_le order _ horder]
      exact ⟨rfl, rfl⟩
    · simpa [List.filter_cons, horder, List.orderedInsert_of_not_le order _ horder] using ih htail

theorem filter_insertionSort (htotal : ∀ first second, order first second ∨ order second first)
    (htrans : ∀ first second third, order first second → order second third →
      order first third) (keep : α → Bool) (items : List α) :
    (items.insertionSort order).filter keep = (items.filter keep).insertionSort order := by
  have : Std.Total order := ⟨htotal⟩
  have : IsTrans α order := ⟨htrans⟩
  induction items with
  | nil => rfl
  | cons head tail ih =>
    have hsorted := List.pairwise_insertionSort order tail
    obtain ⟨hsplit, hinsert⟩ := orderedInsert_split htrans head hsorted
    rw [List.insertionSort_cons, hinsert, List.filter_append, List.filter_cons, List.filter_cons]
    split
    · rw [List.insertionSort_cons, ← ih, (orderedInsert_split htrans head (hsorted.filter keep)).2,
        List.filter_comm keep, List.filter_comm keep]
    · rw [← List.filter_append, hsplit, ih]

theorem find?_live {β : Type*} {time : β → ℤ} {now : ℤ} {views : List β} {searched : β → Bool}
    (hopen : ∀ view, searched view = true → now - openWindow ≤ time view) :
    (live time now views).find? searched =
      ((views.filter searched).insertionSort fun left right => time right ≤ time left).head? := by
  have htotal : ∀ left right : β, time right ≤ time left ∨ time left ≤ time right :=
    fun left right => Int.le_total _ _
  have htrans : ∀ left middle right : β, time middle ≤ time left → time right ≤ time middle →
      time right ≤ time left := fun _ _ _ hleft hright => le_trans hright hleft
  rw [live, ← List.head?_filter, filter_insertionSort htotal htrans, List.filter_filter]
  congr 2
  refine List.filter_congr fun view _ => ?_
  cases hsearched : searched view with
  | false => rfl
  | true => simpa using hopen view hsearched

end Sorting

section Second

variable {host : Host} {scope : Scope} {now : ℤ} {first second : Progress} {last : Registry}
  {touched : Set String} {offered : SignalledItem} {signals : ItemSignals}

/-- How a second run stands to the first one at the same item.  It has the values that the
first one ends with, and what the items before touched was touched alike. -/
structure Again (host : Host) (scope : Scope) (now : ℤ) (last : Registry) (touched : Set String)
    (first second : Progress) : Prop where
  keys : second.registry.rows.map key = last.rows.map key
  earlier : ∃ later, last.rows.map key = first.registry.rows.map key ++ later
  values : ∀ workstreamId, second.registry.valuesAt workstreamId = last.valuesAt workstreamId
  alike : ∀ workstreamId ∈ touched,
    ((second.registry.get workstreamId).map fun record => record.sight.2) =
      (first.registry.get workstreamId).map fun record => record.sight.2
  untouchedFirst : ∀ workstreamId ∉ touched, ∀ record,
    first.registry.get workstreamId = some record → record.lastTouchedThread = none
  untouched : ∀ workstreamId ∉ touched, ∀ record,
    second.registry.get workstreamId = some record → record.lastTouchedThread = none ∧
      ∃ final, last.get workstreamId = some final ∧ final.lastTouchedAt = record.lastTouchedAt
  scopes : ∀ record ∈ second.registry.rows, record.scope = scope
  expired : Expired now second.registry

/-- The touches under which a record is a candidate for recency. -/
def recentTouch (threadRef : Option String) (createdAt : ℤ) (touch : String × Option String × ℤ) :
    Bool :=
  threadRef.isSome && touch.2.1 = threadRef && createdAt - touch.2.2 ≤ recencyWindow

/-- The id and the last touch of a workstream. -/
def WorkstreamRecord.touch (record : WorkstreamRecord) : String × Option String × ℤ :=
  (record.workstreamId, record.sight.2)

theorem recent_eq_recentTouch {threadRef : Option String}
    {createdAt : ℤ} (hnone : signals.comparable host = false) (record : WorkstreamRecord) :
    record.recent signals threadRef createdAt =
      recentTouch threadRef createdAt record.touch := by
  rw [WorkstreamRecord.recent, not_stronglyDisagrees hnone, Bool.not_false, Bool.and_true]
  rfl

/-- The first recent workstream depends on the recent touches alone. -/
theorem find?_recent (threadRef : Option String) {registry : Registry}
    {createdAt : ℤ} (hnone : signals.comparable host = false) (hnow : now ≤ createdAt)
    (hscopes : ∀ record ∈ registry.rows, record.scope = scope) (hexpired : Expired now registry) :
    ((registry.openRecords scope createdAt).find? fun record =>
        record.recent signals threadRef createdAt).map WorkstreamRecord.touch =
      (((registry.rows.map WorkstreamRecord.touch).filter
        (recentTouch threadRef createdAt)).insertionSort
          fun left right => right.2.2 ≤ left.2.2).head? := by
  have hviews : (registry.openRecords scope createdAt).map WorkstreamRecord.touch =
      live (fun touch => touch.2.2) createdAt (registry.rows.map WorkstreamRecord.touch) := by
    refine map_openRecords (fun _ => rfl) (fun record => ?_) fun record hrecord =>
      ⟨hscopes record hrecord, fun hclosed => lt_of_lt_of_le (hexpired record hrecord hclosed)
        (Int.sub_le_sub_right hnow openWindow)⟩
    rw [WorkstreamRecord.touch, WorkstreamRecord.touch, WorkstreamRecord.workstreamId_expire,
      WorkstreamRecord.sight_expire]
  have hopen : ∀ touch, recentTouch threadRef createdAt touch = true →
      createdAt - openWindow ≤ touch.2.2 := by
    intro touch hrecent
    have hwindow := of_decide_eq_true ((Bool.and_eq_true _ _).mp hrecent).2
    simp only [recencyWindow, openWindow] at hwindow ⊢
    omega
  rw [← find?_live hopen, ← hviews, List.find?_map]
  congr 2
  exact funext fun record => recent_eq_recentTouch hnone record

theorem filter_map_eq_filterMap {α β : Type*} (view : α → β) (keep : β → Bool) (items : List α) :
    (items.map view).filter keep =
      items.filterMap fun item => if keep (view item) then some (view item) else none := by
  rw [← List.filterMap_eq_filter, List.filterMap_map]
  rfl

theorem Again.recentTouches (hagain : Again host scope now last touched first second)
    (threadRef : Option String) (createdAt : ℤ) :
    (second.registry.rows.map WorkstreamRecord.touch).filter (recentTouch threadRef createdAt) =
      (first.registry.rows.map WorkstreamRecord.touch).filter
        (recentTouch threadRef createdAt) := by
  let search (record : WorkstreamRecord) : Option (String × Option String × ℤ) :=
    if recentTouch threadRef createdAt record.touch then some record.touch else none
  have hthreadless : ∀ record : WorkstreamRecord, record.lastTouchedThread = none →
      search record = none := by
    intro record hthread
    have hnot : recentTouch threadRef createdAt record.touch = false := by
      rw [recentTouch]
      change (threadRef.isSome && decide (record.lastTouchedThread = threadRef) && _) = false
      rw [hthread]
      cases threadRef <;> rfl
    simp only [search, hnot, Bool.false_eq_true, if_false]
  have hsame : ∀ workstreamId, (second.registry.get workstreamId).bind search =
      (first.registry.get workstreamId).bind search := by
    intro workstreamId
    by_cases htouched : workstreamId ∈ touched
    · have halike := hagain.alike workstreamId htouched
      cases hsecond : second.registry.get workstreamId with
      | none =>
        rw [hsecond, Option.map_none, eq_comm, Option.map_eq_none_iff] at halike
        rw [halike]
      | some record =>
        rw [hsecond, Option.map_some, eq_comm, Option.map_eq_some_iff] at halike
        obtain ⟨other, hother, htouch⟩ := halike
        have hid : record.workstreamId = other.workstreamId :=
          (Table.key_of_get hsecond).trans (Table.key_of_get hother).symm
        have hview : record.touch = other.touch := by
          rw [WorkstreamRecord.touch, WorkstreamRecord.touch, hid, htouch]
        rw [hother, Option.bind_some, Option.bind_some]
        simp only [search, hview]
    · have hnone : ∀ (registry : Registry), (∀ record, registry.get workstreamId = some record →
          record.lastTouchedThread = none) → (registry.get workstreamId).bind search = none := by
        intro registry hthreads
        cases hget : registry.get workstreamId with
        | none => rfl
        | some record => exact hthreadless record (hthreads record hget)
      rw [hnone second.registry fun record hget =>
        (hagain.untouched workstreamId htouched record hget).1,
        hnone first.registry (hagain.untouchedFirst workstreamId htouched)]
  obtain ⟨later, hlater⟩ := hagain.earlier
  have habsent : later.filterMap (fun workstreamId =>
      (first.registry.get workstreamId).bind search) = [] := by
    rw [List.filterMap_eq_nil_iff]
    intro workstreamId hmem
    have hnodup := last.nodup
    rw [hlater] at hnodup
    have hnotMem : workstreamId ∉ first.registry.rows.map key := fun hfirst =>
      (List.nodup_append.mp hnodup).2.2 workstreamId hfirst workstreamId hmem rfl
    rw [Table.get_eq_none_iff.mpr hnotMem]
    rfl
  calc
    _ = second.registry.rows.filterMap search := filter_map_eq_filterMap _ _ _
    _ = (last.rows.map key).filterMap fun workstreamId =>
        (first.registry.get workstreamId).bind search := by
      rw [Table.filterMap_rows, hagain.keys]
      exact List.filterMap_congr fun workstreamId _ => hsame workstreamId
    _ = first.registry.rows.filterMap search := by
      rw [hlater, List.filterMap_append, habsent, List.append_nil, Table.filterMap_rows]
    _ = _ := (filter_map_eq_filterMap _ _ _).symm

theorem findOverlap_of_not_comparable (opened : List WorkstreamRecord)
    (hnone : signals.comparable host = false) : findOverlap host signals opened = none := by
  rw [findOverlap_eq_none_iff]
  intro kind record _
  by_contra hoverlaps
  obtain ⟨value, hitem, -⟩ := overlaps_iff.mp (Bool.not_eq_false _ ▸ hoverlaps)
  have hcomparable := comparable_iff.mpr ⟨_, hitem⟩
  rw [hnone] at hcomparable
  cases hcomparable

variable {after : Registry} {result : AssignmentResult}

/-- What the second run assigns to an item: the workstream of the first run, which is there
already. -/
structure Repeated (host : Host) (scope : Scope) (second : Progress) (offered : SignalledItem)
    (result : AssignmentResult) (follow : Registry) (again : AssignmentResult) : Prop where
  assign : assignWorkstreamForItem host scope offered.signals offered.item.threadRef
    offered.item.createdAt second.registry = some (follow, again)
  workstreamId : again.workstreamId = result.workstreamId
  opens : again.stage ≠ .openNew
  unknown : again.stage = .unknownPseudoId ↔ result.stage = .unknownPseudoId

variable (hagain : Again host scope now last touched first second)
include hagain

section

variable (hfirst : First host scope now first) (hnow : now ≤ offered.item.createdAt)
  (hrepeatable : Repeatable host scope first offered)
  (hassign : assignWorkstreamForItem host scope offered.signals offered.item.threadRef
    offered.item.createdAt first.registry = some (after, result))
include hfirst hnow hrepeatable hassign

/-- An item with values finds the workstream that has them. -/
theorem Again.assign_comparable (hcomparable : offered.signals.comparable host = true)
    (hown : Owns host offered.signals result.workstreamId last)
    (hsince : TouchedSince offered.item.createdAt result.workstreamId last) :
    ∃ follow again, Repeated host scope second offered result follow again := by
  obtain ⟨hknown, -⟩ := hrepeatable.owns hassign hfirst hnow hcomparable
  obtain ⟨value, hvalue⟩ := comparable_iff.mp hcomparable
  have hheld := hown.covered hvalue
  rw [← hagain.values] at hheld
  obtain ⟨record, hget, hrecord⟩ := hheld
  have hid : record.workstreamId = result.workstreamId := Table.key_of_get hget
  have hlive : offered.item.createdAt - openWindow ≤ record.lastTouchedAt := by
    by_cases htouched : result.workstreamId ∈ touched
    · have halike := hagain.alike _ htouched
      rw [hget, Option.map_some, eq_comm, Option.map_eq_some_iff] at halike
      obtain ⟨other, hother, htouch⟩ := halike
      have htime : other.lastTouchedAt = record.lastTouchedAt := congrArg Prod.snd htouch
      rcases assign_cases hassign with ⟨hchoose, -⟩ | ⟨-, -, hstage, -⟩ | ⟨-, -, hstage, -⟩
      · obtain ⟨-, -, joined, hjoined, hjoinedId⟩ := of_choose_attach hchoose
        obtain ⟨old, hold, -, hsameId, hopen⟩ := of_mem_openRecords hjoined
        have holdGet : first.registry.get old.workstreamId = some old := Table.get_of_mem hold
        rw [← hsameId, hjoinedId, hother] at holdGet
        rw [← htime, Option.some.inj holdGet]
        exact hopen
      · rw [(hrepeatable.fresh hassign hstage).2.1] at hother
        cases hother
      · exact absurd hstage hknown
    · obtain ⟨-, final, hfinal, htime⟩ := hagain.untouched _ htouched record hget
      obtain ⟨sight, hsight, hafter⟩ := hsince
      rw [hfinal, Option.map_some, Option.some.injEq] at hsight
      have hfinalTime : final.lastTouchedAt = sight.2.2 := congrArg (fun x => x.2.2) hsight
      rw [← htime, hfinalTime]
      simp only [openWindow]
      omega
  have halone : ∀ other ∈ second.registry.rows, other.shares host offered.signals = true →
      other.workstreamId = record.workstreamId := by
    intro other hother hshares
    obtain ⟨shared, hitem, hshared⟩ := shares_iff.mp hshares
    have hotherGet : second.registry.get other.workstreamId = some other :=
      Table.get_of_mem hother
    rw [← Registry.valuesAt_of_get hotherGet, hagain.values] at hshared
    obtain ⟨owner, hownerGet, howner⟩ := hshared
    have hownerId : owner.workstreamId = other.workstreamId := Table.key_of_get hownerGet
    rw [← hownerId, hid]
    exact hown.alone owner (Table.mem_of_get hownerGet) (shares_iff.mpr ⟨shared, hitem, howner⟩)
  obtain ⟨kind, hchoose⟩ := choose_of_shared offered.item.threadRef hagain.expired
    hnow hagain.scopes (Table.mem_of_get hget) (shares_iff.mpr ⟨value, hvalue, hrecord⟩) hlive
    halone
  refine ⟨_, _, assign_attach hchoose, hid, kind.stage_ne.1, ?_, ?_⟩
  · exact fun hstage => absurd hstage kind.stage_ne.2
  · exact fun hstage => absurd hstage hknown

/-- An item without values finds the workstream that its thread touched, or none again. -/
theorem Again.assign_not_comparable (hnone : offered.signals.comparable host = false) :
    ∃ follow again, Repeated host scope second offered result follow again := by
  have hrecents := (find?_recent offered.item.threadRef hnone hnow hagain.scopes
    hagain.expired).trans ((congrArg (fun touches => (List.insertionSort
      (fun left right : String × Option String × ℤ => right.2.2 ≤ left.2.2) touches).head?)
      (hagain.recentTouches offered.item.threadRef offered.item.createdAt)).trans
        (find?_recent _ hnone hnow hfirst.scopes hfirst.expired).symm)
  have hfirstNone := findOverlap_of_not_comparable
    (first.registry.openRecords scope offered.item.createdAt) hnone
  have hsecondNone := findOverlap_of_not_comparable
    (second.registry.openRecords scope offered.item.createdAt) hnone
  cases hrecent : (first.registry.openRecords scope offered.item.createdAt).find? fun record =>
      record.recent offered.signals offered.item.threadRef offered.item.createdAt with
  | some record =>
    have hchoose := choose_of_recent hfirstNone hrecent
    rw [assign_attach hchoose, Option.some.injEq, Prod.mk.injEq] at hassign
    rw [hrecent, Option.map_some, Option.map_eq_some_iff] at hrecents
    obtain ⟨other, hother, htouch⟩ := hrecents
    have hid : other.workstreamId = record.workstreamId := congrArg Prod.fst htouch
    refine ⟨_, _, assign_attach (choose_of_recent hsecondNone hother), ?_, ?_, ?_⟩
    · rw [← hassign.2]
      exact hid
    · exact fun hstage => by cases hstage
    · rw [← hassign.2]
  | none =>
    rw [hrecent, Option.map_none, Option.map_eq_none_iff] at hrecents
    have hchoose := choose_of_neither hfirstNone hrecent
    have hweak : offered.signals.hasAnyStrong = false := by
      by_contra hstrong
      have hitem := hrepeatable.2
      simp only [hchoose, chooseAlone, if_pos (Bool.not_eq_false _ ▸ hstrong)] at hitem
      cases hhead : (first.registry.openRecords scope offered.item.createdAt).head? with
      | none =>
        simp only [hhead, hnone] at hitem
        exact absurd hitem.1 Bool.false_ne_true
      | some mostRecent =>
        simp only [hhead] at hitem
        by_cases hcovers : mostRecent.covers host offered.signals = true
        · simp only [hcovers, if_true] at hitem
          exact hitem rfl
        · simp only [hcovers, Bool.false_eq_true, if_false, hnone] at hitem
          exact hitem.1
    have hunknown : ∀ opened, chooseAlone host offered.signals opened = .unknown := by
      intro opened
      rw [chooseAlone, hweak]
      rfl
    rw [assign_unknown (hchoose.trans (hunknown _)), Option.some.injEq,
      Prod.mk.injEq] at hassign
    refine ⟨_, _, assign_unknown ((choose_of_neither hsecondNone hrecents).trans
      (hunknown _)), ?_, ?_, ?_⟩
    · rw [← hassign.2]
    · exact fun hstage => by cases hstage
    · rw [← hassign.2]

end

/-- The ids that are touched after an assignment. -/
def touchedBy (touched : Set String) (result : AssignmentResult) : Set String :=
  {workstreamId | workstreamId ∈ touched ∨
    workstreamId = result.workstreamId ∧ result.stage ≠ .unknownPseudoId}

/-- An item leaves the two runs as they stood. -/
theorem Again.assigned (hnow : now ≤ offered.item.createdAt)
    (hassign : assignWorkstreamForItem host scope offered.signals offered.item.threadRef
      offered.item.createdAt first.registry = some (after, result))
    (hfresh : result.stage = .openNew → first.registry.get result.workstreamId = none)
    {follow : Registry} {again : AssignmentResult}
    (hrepeated : Repeated host scope second offered result follow again)
    (hearlier : ∃ later, last.rows.map key = after.rows.map key ++ later)
    (hcovered : result.stage ≠ .unknownPseudoId →
      offered.signals.compared host ⊆ last.valuesAt result.workstreamId)
    {firstDatabase secondDatabase : Database}
    {firstAssigned secondAssigned : List (String × AssignmentResult)} :
    Again host scope offered.item.createdAt last (touchedBy touched result)
      ⟨firstDatabase, after, firstAssigned⟩ ⟨secondDatabase, follow, secondAssigned⟩ := by
  have hopens : again.stage = .openNew → second.registry.get again.workstreamId = none :=
    fun hstage => absurd hstage hrepeated.opens
  have hfirstSight := sight_assigned hassign hfresh
  have hsecondSight := sight_assigned hrepeated.assign hopens
  have hguard : ∀ workstreamId, (workstreamId = again.workstreamId ∧
      again.stage ≠ .unknownPseudoId) ↔ workstreamId = result.workstreamId ∧
        result.stage ≠ .unknownPseudoId := by
    intro workstreamId
    rw [hrepeated.workstreamId, Ne, hrepeated.unknown]
  refine ⟨?_, hearlier, fun workstreamId => ?_, fun workstreamId htouched => ?_,
    fun workstreamId huntouched record hget => ?_,
    fun workstreamId huntouched record hget => ?_, ?_,
    hagain.expired.assigned hnow hrepeated.assign⟩
  · rw [keys_assigned hrepeated.assign, if_neg fun h => hrepeated.opens h.1, hagain.keys]
  · rw [valuesAt_assigned hrepeated.assign hopens, hagain.values]
    split
    · next hid =>
      obtain ⟨rfl, hknown⟩ := (hguard workstreamId).mp hid
      exact Set.union_eq_self_of_subset_right (hcovered hknown)
    · rfl
  · have hboth : ((follow.get workstreamId).map WorkstreamRecord.sight).map Prod.snd =
        ((after.get workstreamId).map WorkstreamRecord.sight).map Prod.snd := by
      rw [hfirstSight, hsecondSight]
      simp only [hguard]
      split
      · rfl
      · next hother =>
        have hold := hagain.alike workstreamId (htouched.resolve_right hother)
        rw [Option.map_map, Option.map_map]
        exact hold
    rw [Option.map_map, Option.map_map] at hboth
    exact hboth
  · obtain ⟨hold, hother⟩ := not_or.mp huntouched
    have hsight := hfirstSight workstreamId
    change after.get workstreamId = some record at hget
    rw [if_neg hother, hget, Option.map_some, eq_comm, Option.map_eq_some_iff] at hsight
    obtain ⟨old, holdGet, hsame⟩ := hsight
    have hthread := hagain.untouchedFirst workstreamId hold old holdGet
    exact (congrArg (fun x => x.2.1) hsame).symm.trans hthread
  · obtain ⟨hold, hother⟩ := not_or.mp huntouched
    have hsight := hsecondSight workstreamId
    change follow.get workstreamId = some record at hget
    rw [if_neg (fun h => hother ((hguard workstreamId).mp h)), hget, Option.map_some, eq_comm,
      Option.map_eq_some_iff] at hsight
    obtain ⟨old, holdGet, hsame⟩ := hsight
    obtain ⟨hthread, final, hfinal, htime⟩ := hagain.untouched workstreamId hold old holdGet
    exact ⟨(congrArg (fun x => x.2.1) hsame).symm.trans hthread, final, hfinal,
      htime.trans (congrArg (fun x => x.2.2) hsame)⟩
  · refine forall_assigned hrepeated.assign (fun record hrecord => ?_) (fun _ _ hrecord => hrecord)
      (fun _ => rfl) hagain.scopes
    rw [WorkstreamRecord.scope_expire]
    exact hrecord

/-- The ids of an assignment without their stages. -/
def assignedIds (progress : Progress) : List (String × String) :=
  progress.assigned.map fun entry => (entry.1, entry.2.workstreamId)

/-- The second run assigns what the first one assigned, and adds no link. -/
theorem Again.assignItems {items : List SignalledItem}
    (hfirst : First host scope now first)
    (hnow : ∀ offered ∈ items, now ≤ offered.item.createdAt)
    (hordered : items.Pairwise fun left right => left.item.createdAt ≤ right.item.createdAt)
    (hrepeatable : RepeatableItems host scope first items)
    (hends : (assignItems host scope first items).2 = true)
    (hlast : last = (assignItems host scope first items).1.registry)
    (hlinks : ∀ link ∈ (assignItems host scope first items).1.database.links.rows,
      (second.database.links.get (key link)).isSome)
    (hids : assignedIds second = assignedIds first) :
    (assignItems host scope second items).2 = true ∧
      (assignItems host scope second items).1.database.links = second.database.links ∧
      assignedIds (assignItems host scope second items).1 =
        assignedIds (assignItems host scope first items).1 := by
  induction items generalizing now touched first second with
  | nil => exact ⟨rfl, rfl, hids⟩
  | cons offered rest ih =>
    obtain ⟨hitem, hrest⟩ := hrepeatable
    obtain ⟨hbefore, hlater⟩ := List.pairwise_cons.mp hordered
    have hoffered := hnow offered List.mem_cons_self
    rw [Workstreams.assignItems] at hends hlast hlinks ⊢
    rw [Workstreams.assignItems]
    cases hnext : assignItem host scope first offered with
    | none =>
      rw [hnext] at hends
      cases hends
    | some next =>
      rw [hnext] at hends hlast hlinks
      have hfirstNext := hfirst.assignItem hoffered hitem hnext
      obtain ⟨-, hearlier, howns, hsince, hkept⟩ :=
        hfirstNext.assignItems hbefore hlater (hrest next hnext)
      obtain ⟨registry, result, hassign, rfl⟩ := assignItem_eq_some hnext
      have hfresh := fun hstage => (hitem.fresh hassign hstage).2.1
      rw [← hlast] at hearlier howns hsince
      have hlastOwns : offered.signals.comparable host = true →
          Owns host offered.signals result.workstreamId last := fun hcomparable =>
        howns _ _ (hitem.owns hassign hfirst hoffered hcomparable).2
      obtain ⟨follow, again, hrepeated⟩ :
          ∃ follow again, Repeated host scope second offered result follow again := by
        cases hcomparable : offered.signals.comparable host with
        | true =>
          have hknown := (hitem.owns hassign hfirst hoffered hcomparable).1
          have htouchedNow : TouchedSince offered.item.createdAt result.workstreamId
              registry := by
            rw [TouchedSince, sight_assigned hassign hfresh, if_pos ⟨rfl, hknown⟩]
            exact ⟨_, rfl, le_refl _⟩
          exact hagain.assign_comparable hfirst hoffered hitem hassign hcomparable
            (hlastOwns hcomparable) (hsince _ _ htouchedNow (le_refl _))
        | false => exact hagain.assign_not_comparable hfirst hoffered hitem hassign hcomparable
      have hcovered : offered.signals.compared host ⊆ last.valuesAt result.workstreamId := by
        cases hcomparable : offered.signals.comparable host with
        | true => exact (hlastOwns hcomparable).covered
        | false =>
          intro value hvalue
          rw [comparable_iff.mpr ⟨value, hvalue⟩] at hcomparable
          cases hcomparable
      have htaken : ((recorded scope second.database offered.item again).links.get
          (key (linkOf offered.item again))).isSome := by
        obtain ⟨link, hlink⟩ := Option.isSome_iff_exists.mp
          (links_insert (recorded scope first.database offered.item result)
            (linkOf offered.item result)).2
        have hheld := hlinks link (hkept link (Table.mem_of_get hlink))
        have hlinkKey : key link = key (linkOf offered.item result) := Table.key_of_get hlink
        rw [hlinkKey] at hheld
        rw [links_recorded]
        change (second.database.links.get
          (offered.item.id, again.workstreamId, watermarkFor offered.item.createdAt)).isSome
        rw [hrepeated.workstreamId]
        exact hheld
      have hsecond : assignItem host scope second offered =
          some ⟨recorded scope second.database offered.item again, follow,
            second.assigned ++ [(offered.item.id, again)]⟩ := by
        rw [assignItem, hrepeated.assign, Option.map_some]
        simp only [insert_of_taken htaken]
      rw [hsecond]
      have hnextIds : assignedIds ⟨recorded scope second.database offered.item again, follow,
          second.assigned ++ [(offered.item.id, again)]⟩ =
          assignedIds ⟨(recorded scope first.database offered.item
            result).insertSourceItemWorkstream (linkOf offered.item result), registry,
            first.assigned ++ [(offered.item.id, result)]⟩ := by
        simp only [assignedIds, List.map_append, List.map_singleton, hrepeated.workstreamId]
        exact congrArg (· ++ _) hids
      obtain ⟨hsecondEnds, hsecondLinks, hsecondIds⟩ :=
        ih (hagain.assigned hoffered hassign hfresh hrepeated hearlier fun _ => hcovered)
          hfirstNext hbefore hlater (hrest _ hnext) hends hlast
          (by rw [links_recorded]; exact hlinks) hnextIds
      refine ⟨hsecondEnds, hsecondLinks.trans ?_, hsecondIds⟩
      exact links_recorded scope second.database offered.item again

end Second

section Runs

variable (host : Host) (scope : Scope)

variable {database : Database}

/-- The items can be assigned again from a store: none raises, a second run finds each of
them again, and no workstream ends with more than three titles. -/
def Replayable (database : Database) (items : List SignalledItem) : Prop :=
  RepeatableItems host scope ⟨database, database.loadRegistry host scope, []⟩ items ∧
    (assignBatch host scope items database).2 = true ∧
    ∀ record ∈ (assignBatch host scope items database).1.registry.rows, record.titles.card ≤ 3

instance (database : Database) (items : List SignalledItem) :
    Decidable (Replayable host scope database items) :=
  inferInstanceAs (Decidable (_ ∧ _ ∧ _))

variable {host scope} {items : List SignalledItem}

theorem first_start (hfits : database.Fits) (now : ℤ) :
    First host scope now ⟨database, database.loadRegistry host scope, []⟩ := by
  refine ⟨loaded_start hfits, fun record hrecord hclosed => ?_⟩
  obtain ⟨row, -, -, rfl⟩ := mem_loadRegistry.mp hrecord
  cases hclosed

/-- A second run begins with what the first one stored. -/
theorem again_start {last : Progress} (now : ℤ) (hloaded : Loaded host scope last)
    (htitles : ∀ record ∈ last.registry.rows,
      record.titles.card ≤ 3) (hearlier : ∃ later, last.registry.rows.map key =
      (database.loadRegistry host scope).rows.map key ++ later) :
    Again host scope now last.registry ∅ ⟨database, database.loadRegistry host scope, []⟩
      ⟨last.database.persistRegistry last.registry,
        (last.database.persistRegistry last.registry).loadRegistry host scope, []⟩ := by
  have hback : ∀ workstreamId record,
      ((last.database.persistRegistry last.registry).loadRegistry host scope).get workstreamId =
        some record → ∃ final, last.registry.get workstreamId = some final ∧
          record.shape = { final.shape with lastTouchedThread := none } := by
    intro workstreamId record hget
    have hpersisted := hloaded.get_persist workstreamId
    rw [hget, Option.map_some, eq_comm, Option.map_eq_some_iff] at hpersisted
    obtain ⟨final, hfinal, hsame⟩ := hpersisted
    have hmem := Table.mem_of_get hfinal
    refine ⟨final, hfinal, hsame.symm.trans ?_⟩
    exact WorkstreamRecord.shape_reload (hloaded.records final hmem).2.2 (htitles final hmem)
  have hthreadless : ∀ (current : Database) workstreamId record,
      (current.loadRegistry host scope).get workstreamId = some record →
        record.lastTouchedThread = none := by
    intro current workstreamId record hget
    obtain ⟨row, -, -, rfl⟩ := mem_loadRegistry.mp (Table.mem_of_get hget)
    rfl
  have hpersistedLoaded : Loaded host scope ⟨_, _, []⟩ := loaded_start hloaded.fits_persist
  refine ⟨hloaded.keys_persist, hearlier, fun workstreamId => ?_,
    fun _ hmem => absurd hmem (Set.notMem_empty _),
    fun workstreamId _ record hget => hthreadless database workstreamId record hget,
    fun workstreamId _ record hget => ?_, fun record hrecord =>
      (hpersistedLoaded.records record hrecord).1, (first_start hloaded.fits_persist now).expired⟩
  · cases hget : ((last.database.persistRegistry last.registry).loadRegistry host scope).get
        workstreamId with
    | none =>
      have hpersisted := hloaded.get_persist workstreamId
      rw [hget, Option.map_none, eq_comm, Option.map_eq_none_iff] at hpersisted
      rw [Registry.valuesAt_of_none hget, Registry.valuesAt_of_none hpersisted]
    | some record =>
      obtain ⟨final, hfinal, hsame⟩ := hback workstreamId record hget
      rw [Registry.valuesAt_of_get hget, Registry.valuesAt_of_get hfinal]
      have hcompared := congrArg WorkstreamRecord.compared hsame
      exact hcompared
  · obtain ⟨final, hfinal, hsame⟩ := hback workstreamId record hget
    exact ⟨hthreadless _ workstreamId record hget, final, hfinal,
      (congrArg WorkstreamRecord.lastTouchedAt hsame).symm⟩

theorem assignmentOrder_iff {left right : SignalledItem} :
    assignmentOrder left right ↔
      toLex (left.item.createdAt, left.item.id) ≤ toLex (right.item.createdAt, right.item.id) := by
  rw [Prod.Lex.toLex_le_toLex]
  rfl

instance : Std.Total assignmentOrder where
  total _ _ := (le_total _ _).imp assignmentOrder_iff.mpr assignmentOrder_iff.mpr

instance : IsTrans SignalledItem assignmentOrder where
  trans _ _ _ hfirst hsecond :=
    assignmentOrder_iff.mpr ((assignmentOrder_iff.mp hfirst).trans (assignmentOrder_iff.mp hsecond))

theorem ordered_newItems (priorWatermark : Option ℤ) (items : List SignalledItem) :
    (newItems priorWatermark items).Pairwise fun left right =>
      left.item.createdAt ≤ right.item.createdAt :=
  (List.pairwise_insertionSort assignmentOrder _).imp fun horder =>
    horder.elim le_of_lt fun h => le_of_eq h.1

theorem exists_first_time
    (hordered : items.Pairwise fun left right => left.item.createdAt ≤ right.item.createdAt) :
    ∃ now, ∀ offered ∈ items, now ≤ offered.item.createdAt := by
  cases items with
  | nil => exact ⟨0, List.forall_mem_nil _⟩
  | cons first rest =>
    refine ⟨first.item.createdAt, fun offered hoffered => ?_⟩
    rcases List.mem_cons.mp hoffered with rfl | hmem
    · exact le_refl _
    · exact (List.pairwise_cons.mp hordered).1 offered hmem

/-- A batch that a second run finds again is assigned alike, and no link is added. -/
theorem Replayable.rerun
    (hreplayable : Replayable host scope database items) (hfits : database.Fits)
    (hordered : items.Pairwise fun left right => left.item.createdAt ≤ right.item.createdAt) :
    (assignBatch host scope items
        (finishBatch (assignBatch host scope items database))).1.database.links =
      (finishBatch (assignBatch host scope items database)).links ∧
    assignedIds (assignBatch host scope items
        (finishBatch (assignBatch host scope items database))).1 =
      assignedIds (assignBatch host scope items database).1 := by
  obtain ⟨hrepeatable, hends, htitles⟩ := hreplayable
  obtain ⟨now, hnow⟩ := exists_first_time hordered
  have hfirst : First host scope now ⟨database, database.loadRegistry host scope, []⟩ :=
    first_start hfits now
  obtain ⟨hloaded, hearlier, -, -, -⟩ := hfirst.assignItems hnow hordered hrepeatable
  have hagain := again_start now hloaded htitles hearlier
  have hstored : finishBatch (assignBatch host scope items database) =
      (assignBatch host scope items database).1.database.persistRegistry
        (assignBatch host scope items database).1.registry := if_pos hends
  rw [hstored]
  refine (hagain.assignItems hfirst hnow hordered hrepeatable hends rfl (fun link hlink => ?_)
    rfl).2
  change (((assignBatch host scope items database).1.database.persistRegistry
    (assignBatch host scope items database).1.registry).links.get (key link)).isSome
  have hget : (assignBatch host scope items database).1.database.links.get (key link) =
      some link := Table.get_of_mem hlink
  rw [links_persistRegistry, hget]
  rfl

/-- The signals of a source with symbols and paths. -/
def codeSignals (symbols paths : Finset String) : ItemSignals := ⟨∅, paths, symbols, ∅, ∅, ∅⟩

end Runs

end Pallium.Workstreams
