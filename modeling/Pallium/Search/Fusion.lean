import Pallium.Search.Results

/-!
# Fusion of two rankings

A composite provider merges the results of a lexical and a vector query by the weighted
sum of their reciprocal ranks.  The sums are exact; the score that is shown is the whole
part of the scaled sum.  The sort is by the sums alone and stable, so that results with
equal sums stay in the order in which the two lists first show them.
-/

namespace Pallium.Fusion

variable {Reference Rest : Type}

section Merge

def rrfK : ℕ := 60

def rrfScoreScale : ℚ := 600

def rrfLexicalWeight : ℚ := 3 / 2

def rrfVectorWeight : ℚ := 1

/-- The rank and the item of an id once the loop over the results has filled the
dictionaries: a later entry replaces an earlier one. -/
def entryFrom (rank : ℕ) : List (QueryResultItem Reference Rest) → String →
    Option (ℕ × QueryResultItem Reference Rest)
  | [], _ => none
  | item :: results, id =>
    match entryFrom (rank + 1) results id with
    | some later => some later
    | none => if item.resultId = some id then some (rank, item) else none

/-- `lexical_ranks`, `vector_ranks`. -/
def ranks (results : List (QueryResultItem Reference Rest)) (id : String) : Option ℕ :=
  (entryFrom 1 results id).map Prod.fst

/-- `lexical_items`, `vector_items`. -/
def items (results : List (QueryResultItem Reference Rest)) (id : String) :
    Option (QueryResultItem Reference Rest) :=
  (entryFrom 1 results id).map Prod.snd

/-- The ids of the results, each where it is first seen, behind those collected before. -/
def collectIds (allIds : List String) : List (QueryResultItem Reference Rest) → List String
  | [] => allIds
  | item :: results =>
    match item.resultId with
    | none => collectIds allIds results
    | some id =>
      if id ∈ allIds then collectIds allIds results else collectIds (allIds ++ [id]) results

/-- What one list adds to the score of an id. -/
def share (weight : ℚ) (results : List (QueryResultItem Reference Rest)) (id : String) : ℚ :=
  (ranks results id).elim 0 fun rank => weight / (rrfK + rank)

variable (lexical vector : List (QueryResultItem Reference Rest))

def rrfScore (id : String) : ℚ :=
  share rrfLexicalWeight lexical id + share rrfVectorWeight vector id

/-- The scored ids in descending order; the sort is stable. -/
def scored : List (ℚ × String) :=
  ((collectIds (collectIds [] lexical) vector).map fun id =>
    (rrfScore lexical vector id, id)).mergeSort fun first second => decide (second.1 ≤ first.1)

/-- The fused version of a result. -/
def replaced (entry : ℚ × String) (item : QueryResultItem Reference Rest)
    (source : RetrievalSource) : QueryResultItem Reference Rest :=
  { item with
    retrievalSource := some source
    score := ⌊entry.1 * rrfScoreScale⌋
    lexicalScore := (items lexical entry.2).map QueryResultItem.score
    vectorScore := (items vector entry.2).map QueryResultItem.score }

/-- The fused result of a scored id; an id in neither list raises. -/
def fusedItem (entry : ℚ × String) : Option (QueryResultItem Reference Rest) :=
  match items lexical entry.2, items vector entry.2 with
  | some item, some _ => some (replaced lexical vector entry item .both)
  | some item, none => some (replaced lexical vector entry item .lexical)
  | none, some item => some (replaced lexical vector entry item .vector)
  | none, none => none

/-- The loop over the scored ids, which ends once `limit` results are fused. -/
def fuseFrom (limit : ℤ) (fused : List (QueryResultItem Reference Rest)) :
    List (ℚ × String) → Option (List (QueryResultItem Reference Rest))
  | [] => some fused
  | entry :: entries =>
    match fusedItem lexical vector entry with
    | none => none
    | some item =>
      if limit ≤ (fused ++ [item]).length then some (fused ++ [item])
      else fuseFrom limit (fused ++ [item]) entries

/-- The results of `_rrf_merge`. -/
def rrfMerge (limit : ℤ) : Option (List (QueryResultItem Reference Rest)) :=
  fuseFrom lexical vector limit [] (scored lexical vector)

end Merge

section Spec

def resultIds (results : List (QueryResultItem Reference Rest)) : List String :=
  results.filterMap QueryResultItem.resultId

def QueryResultItem.hasId (id : String) (item : QueryResultItem Reference Rest) : Bool :=
  decide (item.resultId = some id)

/-- The position of an id; an id that is missing stands behind all results. -/
def position (results : List (QueryResultItem Reference Rest)) (id : String) : ℕ :=
  results.findIdx (QueryResultItem.hasId id)

variable (lexical vector : List (QueryResultItem Reference Rest))

/-- The one result is ranked no worse in both lists and better in one. -/
def Outranks (better worse : String) : Prop :=
  position lexical better ≤ position lexical worse ∧
    position vector better ≤ position vector worse ∧
    (position lexical better < position lexical worse ∨
      position vector better < position vector worse)

/-- The ids in the order in which they first appear, the lexical list first. -/
def appearing : List String :=
  resultIds lexical ++ (resultIds vector).filter fun id => decide (id ∉ resultIds lexical)

/-- The lists in which a result occurs that is in one of them. -/
def label (id : String) : RetrievalSource :=
  if id ∉ resultIds lexical then .vector else if id ∈ resultIds vector then .both else .lexical

/-- What the fusion of two lists promises. -/
structure Fuses (limit : ℤ) (fused : List (QueryResultItem Reference Rest)) : Prop where
  identified : fused.map QueryResultItem.resultId = (resultIds fused).map some
  nodup : (resultIds fused).Nodup
  length : (fused.length : ℤ) = min limit (resultIds lexical ++ resultIds vector).toFinset.card
  descending : fused.Pairwise fun first second => second.score ≤ first.score
  ordered : (resultIds fused).Pairwise fun first second =>
    rrfScore lexical vector second ≤ rrfScore lexical vector first
  dominant : ∀ better worse, Outranks lexical vector better worse → worse ∈ resultIds fused →
    [better, worse].Sublist (resultIds fused)
  stable : ∀ score, (resultIds fused).filter (fun id => rrfScore lexical vector id = score) <+:
    (appearing lexical vector).filter fun id => rrfScore lexical vector id = score
  shown : ∀ item ∈ fused, ∀ id, item.resultId = some id →
    (id ∈ resultIds lexical ∨ id ∈ resultIds vector) ∧
      item.score = ⌊rrfScore lexical vector id * rrfScoreScale⌋ ∧
      item.retrievalSource = some (label lexical vector id)

end Spec

/-- A source hit with an id and nothing else. -/
def hit (id : String) : QueryResultItem Unit Unit where
  resultKind := "source_hit"
  score := 1
  evidence := []
  resultId := some id
  rest := ()

section Pairs

variable {α : Type} {list : List α} {relation : α → α → Prop} {first second : α}

theorem pair_sublist_of_pairwise (hpairwise : list.Pairwise relation) (hfirst : first ∈ list)
    (hsecond : second ∈ list) (hne : first ≠ second) (hnot : ¬ relation second first) :
    [first, second].Sublist list := by
  induction list with
  | nil => exact absurd hfirst List.not_mem_nil
  | cons head rest ih =>
    obtain ⟨hhead, hrest⟩ := List.pairwise_cons.mp hpairwise
    rcases List.mem_cons.mp hfirst with rfl | hearlier
    · have hlater := (List.mem_cons.mp hsecond).resolve_left hne.symm
      exact (List.singleton_sublist.mpr hlater).cons_cons first
    · rcases List.mem_cons.mp hsecond with rfl | hlater
      · exact absurd (hhead first hearlier) hnot
      · exact (ih hrest hearlier hlater).cons head

/-- What comes before a taken element is taken too. -/
theorem pair_sublist_take {count : ℕ} (hpairwise : list.Pairwise relation)
    (hfirst : first ∈ list) (hsecond : second ∈ list.take count) (hne : first ≠ second)
    (hnot : ¬ relation second first) : [first, second].Sublist (list.take count) := by
  rw [← List.take_append_drop count list] at hpairwise hfirst
  obtain ⟨htaken, -, hacross⟩ := List.pairwise_append.mp hpairwise
  refine pair_sublist_of_pairwise htaken ?_ hsecond hne hnot
  exact (List.mem_append.mp hfirst).resolve_right fun hdropped =>
    hnot (hacross second hsecond first hdropped)

end Pairs

section Entries

variable {results : List (QueryResultItem Reference Rest)} {id better worse : String} {weight : ℚ}

theorem find_hasId_eq_none :
    results.find? (QueryResultItem.hasId id) = none ↔ id ∉ resultIds results := by
  simp [resultIds, QueryResultItem.hasId]

theorem resultIds_cons (item : QueryResultItem Reference Rest) :
    resultIds (item :: results) = item.resultId.toList ++ resultIds results := by
  rw [resultIds, List.filterMap_cons]
  cases item.resultId <;> rfl

theorem entryFrom_eq (hnodup : (resultIds results).Nodup) (rank : ℕ) :
    entryFrom rank results id = (results.find? (QueryResultItem.hasId id)).map fun item =>
      (rank + position results id, item) := by
  induction results generalizing rank with
  | nil => rfl
  | cons item results ih =>
    rw [resultIds_cons] at hnodup
    rw [entryFrom, ih hnodup.of_append_right, position, position, List.findIdx_cons,
      List.find?_cons]
    by_cases hid : item.resultId = some id
    · rw [hid, Option.toList_some, List.singleton_append, List.nodup_cons] at hnodup
      rw [find_hasId_eq_none.mpr hnodup.1, QueryResultItem.hasId, hid]
      simp
    · rw [QueryResultItem.hasId, decide_eq_false hid, if_neg hid]
      cases results.find? (QueryResultItem.hasId id) with
      | none => rfl
      | some found => simp [Nat.add_comm, Nat.add_assoc]

theorem items_eq (hnodup : (resultIds results).Nodup) :
    items results id = results.find? (QueryResultItem.hasId id) := by
  rw [items, entryFrom_eq hnodup, Option.map_map]
  exact Option.map_id'

theorem mem_resultIds (hnodup : (resultIds results).Nodup) :
    id ∈ resultIds results ↔ (items results id).isSome := by
  rw [items_eq hnodup, ← not_iff_not, ← find_hasId_eq_none, Option.not_isSome_iff_eq_none]

theorem resultId_of_items {item : QueryResultItem Reference Rest}
    (hnodup : (resultIds results).Nodup) (hitem : items results id = some item) :
    item.resultId = some id := by
  rw [items_eq hnodup] at hitem
  have hid : item.hasId id = true := List.find?_some hitem
  exact of_decide_eq_true hid

theorem share_eq (hnodup : (resultIds results).Nodup) :
    share weight results id = if position results id < results.length then
      weight / (rrfK + (1 + position results id : ℕ)) else 0 := by
  rw [share, ranks, entryFrom_eq hnodup, List.find?_eq_getElem?_findIdx]
  change Option.elim (Option.map _ (Option.map _ results[position results id]?)) _ _ = _
  split
  · next hlt =>
      rw [List.getElem?_eq_getElem hlt]
      rfl
  · next hmissing =>
      rw [List.getElem?_eq_none (not_lt.mp hmissing)]
      rfl

theorem share_lt (hweight : 0 < weight) (hnodup : (resultIds results).Nodup)
    (hahead : position results better < position results worse) :
    share weight results worse < share weight results better := by
  have hpositive : ∀ rank : ℕ, (0 : ℚ) < rrfK + rank := fun rank =>
    add_pos_of_pos_of_nonneg (by norm_num [rrfK]) rank.cast_nonneg
  rw [share_eq hnodup, share_eq hnodup, if_pos (hahead.trans_le List.findIdx_le_length)]
  split
  · refine div_lt_div_of_pos_left hweight (hpositive _) ?_
    exact add_lt_add_right (Nat.cast_lt.mpr (Nat.add_lt_add_left hahead 1)) _
  · exact div_pos hweight (hpositive _)

theorem share_le (hweight : 0 < weight) (hnodup : (resultIds results).Nodup)
    (hahead : position results better ≤ position results worse) :
    share weight results worse ≤ share weight results better := by
  rcases hahead.lt_or_eq with hlt | heq
  · exact (share_lt hweight hnodup hlt).le
  · rw [share_eq hnodup, share_eq hnodup, heq]

theorem collectIds_eq (hnodup : (resultIds results).Nodup) (allIds : List String) :
    collectIds allIds results =
      allIds ++ (resultIds results).filter fun id => decide (id ∉ allIds) := by
  induction results generalizing allIds with
  | nil => exact (List.append_nil _).symm
  | cons item results ih =>
    rw [resultIds_cons] at hnodup ⊢
    rw [collectIds]
    cases hid : item.resultId with
    | none => exact ih hnodup.of_append_right allIds
    | some id =>
      rw [hid, Option.toList_some, List.singleton_append, List.nodup_cons] at hnodup
      rw [Option.toList_some, List.singleton_append]
      by_cases hseen : id ∈ allIds
      · simp only [if_pos hseen, ih hnodup.2]
        rw [List.filter_cons_of_neg (by simpa using hseen)]
      · simp only [if_neg hseen, ih hnodup.2]
        rw [List.filter_cons_of_pos (by simpa using hseen), List.append_assoc,
          List.singleton_append]
        congr 2
        refine List.filter_congr fun other hother => ?_
        have hne : other ≠ id := fun hsame => hnodup.1 (hsame ▸ hother)
        simp [hne]

end Entries

section Order

variable {lexical vector : List (QueryResultItem Reference Rest)} {better worse : String}

theorem mem_appearing {id : String} :
    id ∈ appearing lexical vector ↔ id ∈ resultIds lexical ∨ id ∈ resultIds vector := by
  rw [appearing, List.mem_append, List.mem_filter, decide_eq_true_eq]
  tauto

theorem appearing_of_outranks (houtranks : Outranks lexical vector better worse) :
    better ∈ appearing lexical vector := by
  have hmem : ∀ {results : List (QueryResultItem Reference Rest)},
      position results better < position results worse → better ∈ resultIds results := by
    intro results hahead
    by_contra hmissing
    have hall := List.find?_eq_none.mp (find_hasId_eq_none.mpr hmissing)
    have hend : position results better = results.length :=
      List.findIdx_eq_length.mpr fun item hitem => Bool.not_eq_true _ ▸ hall item hitem
    exact absurd (hend ▸ hahead) List.findIdx_le_length.not_gt
  exact mem_appearing.mpr (houtranks.2.2.imp hmem hmem)

variable (hlexical : (resultIds lexical).Nodup) (hvector : (resultIds vector).Nodup)
include hlexical hvector

theorem nodup_appearing : (appearing lexical vector).Nodup := by
  refine List.nodup_append'.mpr ⟨hlexical, hvector.filter _, fun id hfirst hsecond => ?_⟩
  exact of_decide_eq_true (List.mem_filter.mp hsecond).2 hfirst

theorem length_appearing : (appearing lexical vector).length =
    (resultIds lexical ++ resultIds vector).toFinset.card := by
  rw [← List.toFinset_card_of_nodup (nodup_appearing hlexical hvector)]
  congr 1
  ext id
  rw [List.mem_toFinset, List.mem_toFinset, mem_appearing, List.mem_append]

theorem rrfScore_lt (houtranks : Outranks lexical vector better worse) :
    rrfScore lexical vector worse < rrfScore lexical vector better := by
  have hlexicalWeight : 0 < rrfLexicalWeight := by norm_num [rrfLexicalWeight]
  have hvectorWeight : 0 < rrfVectorWeight := by norm_num [rrfVectorWeight]
  obtain ⟨hfirst, hsecond, hahead | hahead⟩ := houtranks
  · exact add_lt_add_of_lt_of_le (share_lt hlexicalWeight hlexical hahead)
      (share_le hvectorWeight hvector hsecond)
  · exact add_lt_add_of_le_of_lt (share_le hlexicalWeight hlexical hfirst)
      (share_lt hvectorWeight hvector hahead)

end Order

section Sorted

variable (lexical vector : List (QueryResultItem Reference Rest))

/-- The ids by descending score. -/
def order : List String :=
  (appearing lexical vector).mergeSort fun first second =>
    decide (rrfScore lexical vector second ≤ rrfScore lexical vector first)

variable {lexical vector}

theorem order_perm : (order lexical vector).Perm (appearing lexical vector) :=
  List.mergeSort_perm _ _

theorem scored_eq (hlexical : (resultIds lexical).Nodup) (hvector : (resultIds vector).Nodup) :
    scored lexical vector =
      (order lexical vector).map fun id => (rrfScore lexical vector id, id) := by
  have hcollected : collectIds (collectIds [] lexical) vector = appearing lexical vector := by
    rw [collectIds_eq hlexical, collectIds_eq hvector]
    simp [appearing]
  have hsorted := @List.map_mergeSort _ _ _ (fun first second : ℚ × String =>
    decide (second.1 ≤ first.1)) (fun id => (rrfScore lexical vector id, id))
    (appearing lexical vector) fun _ _ _ _ => rfl
  rw [scored, hcollected, ← hsorted, order]

theorem decide_le_trans (score : String → ℚ) (first second third : String)
    (hfirst : decide (score second ≤ score first)) (hsecond : decide (score third ≤ score second)) :
    decide (score third ≤ score first) :=
  decide_eq_true ((of_decide_eq_true hsecond).trans (of_decide_eq_true hfirst))

theorem decide_le_total (score : String → ℚ) (first second : String) :
    decide (score second ≤ score first) || decide (score first ≤ score second) := by
  simpa using le_total (score second) (score first)

theorem pairwise_order : (order lexical vector).Pairwise fun first second =>
    rrfScore lexical vector second ≤ rrfScore lexical vector first :=
  (List.pairwise_mergeSort (decide_le_trans _) (decide_le_total _) _).imp of_decide_eq_true

/-- The sort keeps the order of the ids with one score. -/
theorem filter_order (score : ℚ) :
    (order lexical vector).filter (fun id => rrfScore lexical vector id = score) =
      (appearing lexical vector).filter fun id => rrfScore lexical vector id = score := by
  have hequal : ((appearing lexical vector).filter fun id =>
      rrfScore lexical vector id = score).Pairwise fun first second =>
        decide (rrfScore lexical vector second ≤ rrfScore lexical vector first) := by
    refine List.pairwise_of_forall_mem_list fun first hfirst second hsecond => ?_
    simp only [List.mem_filter, decide_eq_true_eq] at hfirst hsecond ⊢
    rw [hfirst.2, hsecond.2]
  have hsublist := (List.sublist_mergeSort (decide_le_trans _) (decide_le_total _) hequal
    List.filter_sublist).filter fun id => rrfScore lexical vector id = score
  simp only [List.filter_filter, Bool.and_self] at hsublist
  exact (hsublist.eq_of_length (order_perm.filter _).length_eq.symm).symm

end Sorted

section Fused

variable {lexical vector fused : List (QueryResultItem Reference Rest)} {id : String} {limit : ℤ}

/-- What a fused result shows. -/
def QueryResultItem.face (item : QueryResultItem Reference Rest) :
    Option String × ℚ × Option RetrievalSource :=
  (item.resultId, item.score, item.retrievalSource)

theorem fusedItem_face (hlexical : (resultIds lexical).Nodup) (hvector : (resultIds vector).Nodup)
    (hid : id ∈ appearing lexical vector) (score : ℚ) :
    ∃ item, fusedItem lexical vector (score, id) = some item ∧
      item.face = (some id, (⌊score * rrfScoreScale⌋ : ℚ), some (label lexical vector id)) := by
  rw [mem_appearing, mem_resultIds hlexical, mem_resultIds hvector] at hid
  simp only [fusedItem, label, mem_resultIds hlexical, mem_resultIds hvector]
  cases hfirst : items lexical id with
  | some item =>
    have hfound := resultId_of_items hlexical hfirst
    cases hsecond : items vector id with
    | some other => exact ⟨_, rfl, by simp [QueryResultItem.face, replaced, hfound]⟩
    | none => exact ⟨_, rfl, by simp [QueryResultItem.face, replaced, hfound]⟩
  | none =>
    cases hsecond : items vector id with
    | some item =>
      have hfound := resultId_of_items hvector hsecond
      exact ⟨_, rfl, by simp [QueryResultItem.face, replaced, hfound]⟩
    | none => simp [hfirst, hsecond] at hid

theorem fuseFrom_eq {entries : List (ℚ × String)}
    {faceOf : ℚ × String → Option String × ℚ × Option RetrievalSource}
    (hroom : (fused.length : ℤ) < limit)
    (hentries : ∀ entry ∈ entries, ∃ item, fusedItem lexical vector entry = some item ∧
      item.face = faceOf entry) :
    ∃ more, fuseFrom lexical vector limit fused entries = some (fused ++ more) ∧
      more.map QueryResultItem.face = (entries.take (limit.toNat - fused.length)).map faceOf := by
  induction entries generalizing fused with
  | nil => exact ⟨[], by rw [fuseFrom, List.append_nil], by rw [List.take_nil]; rfl⟩
  | cons entry entries ih =>
    obtain ⟨⟨item, hitem, hface⟩, hrest⟩ := List.forall_mem_cons.mp hentries
    have hcount : limit.toNat - fused.length = limit.toNat - (fused ++ [item]).length + 1 := by
      rw [List.length_append, List.length_singleton]
      omega
    rw [fuseFrom, hitem, hcount, List.take_succ_cons, List.map_cons, ← hface]
    simp only
    split
    · next hfull =>
        refine ⟨[item], rfl, ?_⟩
        rw [Nat.sub_eq_zero_of_le (by omega), List.take_zero]
        rfl
    · next hopen =>
        obtain ⟨more, hfused, hmore⟩ := ih (not_le.mp hopen) hrest
        exact ⟨item :: more, by rw [hfused, List.append_assoc, List.singleton_append],
          by rw [List.map_cons, hmore]⟩

/-- The fused list of two lists without repeated ids. -/
theorem rrfMerge_fuses (hlexical : (resultIds lexical).Nodup) (hvector : (resultIds vector).Nodup)
    (hlimit : 1 ≤ limit) :
    ∃ fused, rrfMerge lexical vector limit = some fused ∧ Fuses lexical vector limit fused := by
  obtain ⟨fused, hfused, hfaces⟩ := @fuseFrom_eq _ _ lexical vector [] limit
    (scored lexical vector) (fun entry => (some entry.2, (⌊entry.1 * rrfScoreScale⌋ : ℚ),
      some (label lexical vector entry.2))) (Int.lt_of_add_one_le hlimit) fun entry hentry => by
        rw [scored_eq hlexical hvector] at hentry
        obtain ⟨id, hid, rfl⟩ := List.mem_map.mp hentry
        exact fusedItem_face hlexical hvector (order_perm.mem_iff.mp hid) _
  rw [scored_eq hlexical hvector, ← List.map_take, List.map_map, List.length_nil,
    Nat.sub_zero] at hfaces
  have hnodup := order_perm.nodup_iff.mpr (nodup_appearing hlexical hvector)
  have hsorted := (@pairwise_order _ _ lexical vector).sublist (List.take_sublist limit.toNat _)
  have hids : fused.map QueryResultItem.resultId =
      ((order lexical vector).take limit.toNat).map some := by
    simpa [Function.comp_def, QueryResultItem.face] using congrArg (List.map Prod.fst) hfaces
  have hscores : fused.map QueryResultItem.score = ((order lexical vector).take limit.toNat).map
      fun id => (⌊rrfScore lexical vector id * rrfScoreScale⌋ : ℚ) := by
    simpa [Function.comp_def, QueryResultItem.face] using
      congrArg (List.map fun face => face.2.1) hfaces
  have hshown : resultIds fused = (order lexical vector).take limit.toNat := by
    calc resultIds fused = (fused.map QueryResultItem.resultId).filterMap id := by
          rw [List.filterMap_map]
          rfl
      _ = (order lexical vector).take limit.toNat := by
          rw [hids, List.filterMap_map]
          exact List.filterMap_some
  refine ⟨fused, hfused, ?_⟩
  constructor
  case identified => rw [hids, hshown]
  case nodup =>
    rw [hshown]
    exact hnodup.sublist (List.take_sublist _ _)
  case length =>
    have hcount := congrArg List.length hids
    rw [List.length_map, List.length_map, List.length_take, order_perm.length_eq,
      length_appearing hlexical hvector] at hcount
    omega
  case descending =>
    have hdescending : (fused.map QueryResultItem.score).Pairwise fun first second =>
        second ≤ first := by
      rw [hscores, List.pairwise_map]
      refine hsorted.imp fun hle => Int.cast_le.mpr (Int.floor_le_floor ?_)
      exact mul_le_mul_of_nonneg_right hle (by norm_num [rrfScoreScale])
    exact List.pairwise_map.mp hdescending
  case ordered => rwa [hshown]
  case dominant =>
    intro better worse houtranks hworse
    have hlt := rrfScore_lt hlexical hvector houtranks
    rw [hshown] at hworse ⊢
    refine pair_sublist_take pairwise_order ?_ hworse ?_ (not_le.mpr hlt)
    · exact order_perm.mem_iff.mpr (appearing_of_outranks houtranks)
    · rintro rfl
      exact hlt.false
  case stable =>
    intro score
    rw [hshown, ← filter_order]
    exact (List.take_prefix _ _).filter _
  case shown =>
    intro item hitem id hid
    have hface : item.face ∈ fused.map QueryResultItem.face := List.mem_map_of_mem hitem
    rw [hfaces] at hface
    obtain ⟨found, hfound, hsame⟩ := List.mem_map.mp hface
    have hfoundId : some found = item.resultId := congrArg Prod.fst hsame
    obtain rfl := Option.some.inj (hfoundId.trans hid)
    refine ⟨mem_appearing.mp (order_perm.mem_iff.mp (List.mem_of_mem_take hfound)), ?_, ?_⟩
    · exact (congrArg (fun face => face.2.1) hsame).symm
    · exact (congrArg (fun face => face.2.2) hsame).symm

theorem rrfMerge_fuses_two_lists :
    ∃ fused, rrfMerge [hit "a", hit "b"] [hit "b", hit "c"] 2 = some fused ∧
      Fuses [hit "a", hit "b"] [hit "b", hit "c"] 2 fused :=
  rrfMerge_fuses (by decide) (by decide) (by decide)

end Fused

end Pallium.Fusion
