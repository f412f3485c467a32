import Pallium.Core.Ranking
import Pallium.Search.Results

/-!
# Search of sources alone

Raw source hits are ranked on their own.  Hits with one content in one place collapse to
the first of them, which takes over the evidence of the others, and the window that is
asked for doubles while collapsing and exclusion leave slots empty.
-/

namespace Pallium.Fusion

open Pallium.Ranking (firsts)

variable {Reference Rest : Type}

/-- The key of normalized-equivalent hits. -/
structure DuplicateKey where
  sourceType : Option String
  role : Option String
  actorRef : Option String
  containerRef : Option String
  threadRef : Option String
  fingerprint : String
deriving DecidableEq

/-- Only a source hit with a fingerprint has a key. -/
def duplicateKey (item : QueryResultItem Reference Rest) : Option DuplicateKey :=
  match if item.resultKind = "source_hit" then item.sourceContentFingerprint else none with
  | none => none
  | some fingerprint =>
    if fingerprint = "" then none
    else some ⟨item.sourceType, item.role, item.actorRef, item.containerRef, item.threadRef,
      fingerprint⟩

section Loop

variable [DecidableEq Reference]

/-- The evidence with the references it lacks behind it, each once. -/
def extended (evidence references : List Reference) : List Reference :=
  references.foldl (fun evidence reference =>
    if reference ∈ evidence then evidence else evidence ++ [reference]) evidence

def absorb (item kept : QueryResultItem Reference Rest) : QueryResultItem Reference Rest :=
  { kept with evidence := extended kept.evidence item.evidence }

/-- The loop of `_collapse_source_duplicates`. -/
def collapseFrom (retained : List (QueryResultItem Reference Rest))
    (positions : DuplicateKey → Option ℕ) :
    List (QueryResultItem Reference Rest) → List (QueryResultItem Reference Rest)
  | [] => retained
  | item :: results =>
    match duplicateKey item with
    | none => collapseFrom (retained ++ [item]) positions results
    | some key =>
      match positions key with
      | none =>
        collapseFrom (retained ++ [item]) (Function.update positions key (some retained.length))
          results
      | some position => collapseFrom (retained.modify position (absorb item)) positions results

def collapseSourceDuplicates (results : List (QueryResultItem Reference Rest)) :
    List (QueryResultItem Reference Rest) :=
  collapseFrom [] (fun _ => none) results

def excludeIdentity (excluded : Option (String × String))
    (results : List (QueryResultItem Reference Rest)) : List (QueryResultItem Reference Rest) :=
  match excluded with
  | none => results
  | some (sourceType, sourceId) => results.filter fun item =>
      item.resultKind ≠ "source_hit" ∨
        (item.sourceType, item.sourceId) ≠ (some sourceType, some sourceId)

variable (query : ℕ → List (QueryResultItem Reference Rest)) (limit : ℕ)
  (excluded : Option (String × String))

/-- The distinct results once the loop ends. -/
def refill : ℕ → ℕ → Option (List (QueryResultItem Reference Rest))
  | 0, _ => none
  | fuel + 1, retrievalLimit =>
    let retrieved := query retrievalLimit
    let distinct := collapseSourceDuplicates (excludeIdentity excluded retrieved)
    if limit ≤ distinct.length ∨ retrieved.length < retrievalLimit then some distinct
    else if retrievalLimit = 200 then some distinct
    else refill fuel (min (retrievalLimit * 2) 200)

/-- The page of the distinct results, ranked from 1. -/
def ranked (distinct : List (QueryResultItem Reference Rest)) :
    List (QueryResultItem Reference Rest) :=
  (distinct.take limit).mapIdx fun index item => { item with rawRank := some (index + 1) }

/-- The results of a `source_only` query. -/
def sourceOnly (fuel : ℕ) : Option (List (QueryResultItem Reference Rest)) :=
  (refill query limit excluded fuel (min (max (limit * 4) 12) 200)).map (ranked limit)

end Loop

section Spec

def Duplicates (kept item : QueryResultItem Reference Rest) : Prop :=
  duplicateKey kept ≠ none ∧ duplicateKey item = duplicateKey kept

instance (kept item : QueryResultItem Reference Rest) : Decidable (Duplicates kept item) :=
  inferInstanceAs (Decidable (_ ∧ _))

/-- The results that repeat neither a key seen before nor an earlier result. -/
def distinctFrom (seen : List DuplicateKey) : List (QueryResultItem Reference Rest) →
    List (QueryResultItem Reference Rest)
  | [] => []
  | item :: results =>
    match duplicateKey item with
    | none => item :: distinctFrom seen results
    | some key =>
      if key ∈ seen then distinctFrom seen results
      else item :: distinctFrom (seen ++ [key]) results

/-- The first result of each class of duplicates. -/
def distinctItems (results : List (QueryResultItem Reference Rest)) :
    List (QueryResultItem Reference Rest) :=
  distinctFrom [] results

/-- A kept result has its own evidence and behind it, each once, what its duplicates add. -/
structure Merges (results : List (QueryResultItem Reference Rest))
    (kept merged : QueryResultItem Reference Rest) : Prop where
  unchanged : { merged with evidence := kept.evidence } = kept
  evidence : ∃ added, merged.evidence = kept.evidence ++ added ∧ added.Nodup ∧
    added.Disjoint kept.evidence
  mem : ∀ reference, reference ∈ merged.evidence ↔ reference ∈ kept.evidence ∨
    ∃ item ∈ results, Duplicates kept item ∧ reference ∈ item.evidence

/-- A result without its evidence and its rank in the page. -/
def bare (item : QueryResultItem Reference Rest) : QueryResultItem Reference Rest :=
  { item with evidence := [], rawRank := none }

end Spec

section Evidence

variable [DecidableEq Reference] {evidence references more : List Reference} {reference : Reference}

theorem extended_eq : extended evidence references =
    evidence ++ firsts (fun reference => reference) evidence references := by
  induction references generalizing evidence with
  | nil => exact (List.append_nil evidence).symm
  | cons head rest ih =>
    rw [extended, List.foldl_cons, ← Ranking.append_firsts evidence head]
    exact ih

theorem mem_extended :
    reference ∈ extended evidence references ↔ reference ∈ evidence ∨ reference ∈ references := by
  rw [extended_eq, List.mem_append, Ranking.mem_firsts]
  tauto

theorem extended_append :
    extended evidence (references ++ more) = extended (extended evidence references) more :=
  List.foldl_append

theorem extended_self : extended evidence evidence = evidence := by
  have hnone : firsts (fun reference => reference) evidence evidence = [] :=
    List.eq_nil_iff_forall_not_mem.mpr fun _ hmem =>
      (Ranking.mem_firsts.mp hmem).2 (Ranking.mem_firsts.mp hmem).1
  rw [extended_eq, hnone, List.append_nil]

end Evidence

section Distinct

variable {results more : List (QueryResultItem Reference Rest)}
  {item : QueryResultItem Reference Rest} {seen : List DuplicateKey} {key : DuplicateKey}

def duplicateKeys (results : List (QueryResultItem Reference Rest)) : List DuplicateKey :=
  results.filterMap duplicateKey

theorem key_not_seen (hitem : item ∈ distinctFrom seen results)
    (hkey : duplicateKey item = some key) : key ∉ seen := by
  induction results generalizing seen with
  | nil => cases hitem
  | cons head rest ih =>
    rw [distinctFrom] at hitem
    cases hhead : duplicateKey head with
    | none =>
      simp only [hhead] at hitem
      rcases List.mem_cons.mp hitem with rfl | hrest
      · cases hhead.symm.trans hkey
      · exact ih hrest
    | some other =>
      simp only [hhead] at hitem
      split at hitem
      · exact ih hitem
      · next hfresh =>
          rcases List.mem_cons.mp hitem with rfl | hrest
          · obtain rfl := Option.eq_some_unique hhead hkey
            exact hfresh
          · exact fun hseen => ih hrest (List.mem_append_left _ hseen)

theorem nodup_distinctFrom (seen : List DuplicateKey) :
    (duplicateKeys (distinctFrom seen results)).Nodup := by
  induction results generalizing seen with
  | nil => exact List.nodup_nil
  | cons head rest ih =>
    rw [distinctFrom]
    cases hhead : duplicateKey head with
    | none =>
      simp only
      rw [duplicateKeys, List.filterMap_cons_none hhead]
      exact ih seen
    | some key =>
      simp only
      split
      · exact ih seen
      · rw [duplicateKeys, List.filterMap_cons_some hhead, List.nodup_cons]
        refine ⟨fun hmem => ?_, ih _⟩
        obtain ⟨item, hitem, hkey⟩ := List.mem_filterMap.mp hmem
        exact key_not_seen hitem hkey (List.mem_append_right _ List.mem_cons_self)

theorem distinctFrom_isPrefix (hresults : results <+: more) (seen : List DuplicateKey) :
    distinctFrom seen results <+: distinctFrom seen more := by
  obtain ⟨rest, rfl⟩ := hresults
  induction results generalizing seen with
  | nil => exact List.nil_prefix
  | cons head results ih =>
    rw [List.cons_append, distinctFrom, distinctFrom]
    cases duplicateKey head with
    | none => exact (List.prefix_cons_inj head).mpr (ih seen)
    | some key =>
      simp only
      split
      · exact ih seen
      · exact (List.prefix_cons_inj head).mpr (ih _)

end Distinct

section Collapsed

variable [DecidableEq Reference] {retained results : List (QueryResultItem Reference Rest)}
  {positions : DuplicateKey → Option ℕ} {item kept : QueryResultItem Reference Rest}
  {key : DuplicateKey}

/-- A kept result with the evidence of its duplicates. -/
def gathered (results : List (QueryResultItem Reference Rest))
    (kept : QueryResultItem Reference Rest) : QueryResultItem Reference Rest :=
  { kept with
    evidence := extended kept.evidence
      ((results.filter (Duplicates kept)).flatMap QueryResultItem.evidence) }

theorem gathered_of_duplicates (hduplicates : Duplicates kept item) :
    gathered (item :: results) kept = gathered results (absorb item kept) := by
  rw [gathered, List.filter_cons_of_pos (by simpa using hduplicates), List.flatMap_cons,
    extended_append]
  rfl

theorem gathered_of_not (hnot : ¬ Duplicates kept item) :
    gathered (item :: results) kept = gathered results kept := by
  rw [gathered, List.filter_cons_of_neg (by simpa using hnot)]
  rfl

theorem gathered_self : gathered (item :: results) item = gathered results item := by
  by_cases hduplicates : Duplicates item item
  · rw [gathered_of_duplicates hduplicates, absorb, extended_self]
  · exact gathered_of_not hduplicates

theorem gathered_merges : Merges results kept (gathered results kept) where
  unchanged := rfl
  evidence := by
    refine ⟨_, extended_eq, ?_, fun _ hadded => (Ranking.mem_firsts.mp hadded).2⟩
    simpa using @Ranking.nodup_targets_firsts _ _ _ (fun reference : Reference => reference)
      kept.evidence _
  mem reference := by
    rw [gathered, mem_extended, List.mem_flatMap]
    simp [and_assoc]

/-- The recorded positions are those of the retained results with a key. -/
def Records (retained : List (QueryResultItem Reference Rest))
    (positions : DuplicateKey → Option ℕ) : Prop :=
  ∀ key position, positions key = some position ↔
    ∃ kept, retained[position]? = some kept ∧ duplicateKey kept = some key

section

variable (hrecords : Records retained positions)
include hrecords

theorem Records.mem_keys :
    key ∈ duplicateKeys retained ↔ positions key ≠ none := by
  rw [Option.ne_none_iff_exists', duplicateKeys, List.mem_filterMap]
  simp only [hrecords key, List.mem_iff_getElem?]
  grind

theorem Records.append (hkey : duplicateKey item = none) :
    Records (retained ++ [item]) positions := by
  intro key position
  rw [hrecords key position]
  grind [List.getElem?_append]

theorem Records.append_fresh
    (hkey : duplicateKey item = some key) (hfresh : positions key = none) :
    Records (retained ++ [item]) (Function.update positions key (some retained.length)) := by
  intro other position
  have hother := hrecords other position
  grind [Function.update_apply, List.getElem?_append]

theorem Records.modify (position : ℕ) :
    Records (retained.modify position (absorb item)) positions := by
  intro key other
  rw [hrecords key other, List.getElem?_modify]
  split
  · simp [absorb, duplicateKey]
  · simp

end

theorem keys_gathered (list : List (QueryResultItem Reference Rest)) :
    duplicateKeys (list.map (gathered results)) = duplicateKeys list :=
  List.filterMap_map

theorem gathered_absorbed (hrecords : Records retained positions) {position : ℕ}
    (hkey : duplicateKey item = some key) (hposition : positions key = some position) :
    (retained.modify position (absorb item)).map (gathered results) =
      retained.map (gathered (item :: results)) := by
  refine List.ext_getElem? fun index => ?_
  rw [List.getElem?_map, List.getElem?_map, List.getElem?_modify]
  cases hkept : retained[index]? with
  | none => rfl
  | some kept =>
    simp only [Option.map_eq_map, Option.map_some, Option.some.injEq]
    by_cases hsame : position = index
    · subst hsame
      obtain ⟨other, hother, hotherKey⟩ := (hrecords key position).mp hposition
      obtain rfl := Option.eq_some_unique hkept hother
      have hduplicates : Duplicates kept item :=
        ⟨by rw [hotherKey]; exact Option.some_ne_none key, hkey.trans hotherKey.symm⟩
      rw [if_pos rfl, gathered_of_duplicates hduplicates]
    · have hnot : ¬ Duplicates kept item := fun hduplicates => hsame (by
        have hindex := (hrecords key index).mpr ⟨kept, hkept, hduplicates.2.symm.trans hkey⟩
        exact Option.eq_some_unique hposition hindex)
      rw [if_neg hsame, gathered_of_not hnot]

/-- What the loop returns from any recorded state. -/
theorem collapseFrom_eq (hrecords : Records retained positions) :
    collapseFrom retained positions results =
      (retained ++ distinctFrom (duplicateKeys retained) results).map (gathered results) := by
  induction results generalizing retained positions with
  | nil =>
    rw [collapseFrom, distinctFrom, List.append_nil]
    exact (List.map_id retained).symm
  | cons item results ih =>
    rw [collapseFrom, distinctFrom]
    cases hkey : duplicateKey item with
    | none =>
      have hnot : ∀ kept, ¬ Duplicates kept item := fun kept hduplicates =>
        hduplicates.1 (hduplicates.2.symm.trans hkey)
      simp only
      rw [ih (hrecords.append hkey), duplicateKeys, List.filterMap_append,
        List.filterMap_cons_none hkey, List.filterMap_nil, List.append_nil, List.append_assoc]
      exact List.map_congr_left fun kept _ => (gathered_of_not (hnot kept)).symm
    | some key =>
      have hknown := @Records.mem_keys _ _ _ _ _ key hrecords
      cases hposition : positions key with
      | none =>
        have hfresh : key ∉ duplicateKeys retained := fun hmem => hknown.mp hmem hposition
        simp only [hposition]
        rw [if_neg hfresh, ih (hrecords.append_fresh hkey hposition), duplicateKeys,
          List.filterMap_append, List.filterMap_cons_some hkey, List.append_assoc]
        refine List.map_congr_left fun kept hkept => ?_
        rcases List.mem_append.mp hkept with hretained | hlater
        · refine (gathered_of_not fun hduplicates => hfresh ?_).symm
          exact List.mem_filterMap.mpr ⟨kept, hretained, hduplicates.2.symm.trans hkey⟩
        · rcases List.mem_cons.mp hlater with rfl | hlater
          · exact gathered_self.symm
          · refine (gathered_of_not fun hduplicates => ?_).symm
            exact key_not_seen hlater (hduplicates.2.symm.trans hkey)
              (List.mem_append_right _ List.mem_cons_self)
      | some position =>
        have hseen : key ∈ duplicateKeys retained := hknown.mpr (by simp [hposition])
        have hkeys : duplicateKeys (retained.modify position (absorb item)) =
            duplicateKeys retained := by
          have hsame := congrArg duplicateKeys
            (@gathered_absorbed _ _ _ _ results _ _ _ hrecords _ hkey hposition)
          rwa [keys_gathered, keys_gathered] at hsame
        simp only [hposition]
        rw [if_pos hseen, ih (hrecords.modify position), hkeys, List.map_append, List.map_append,
          gathered_absorbed hrecords hkey hposition]
        congr 1
        refine List.map_congr_left fun kept hkept => (gathered_of_not fun hduplicates => ?_).symm
        exact key_not_seen hkept (hduplicates.2.symm.trans hkey) hseen

theorem collapse_eq :
    collapseSourceDuplicates results = (distinctItems results).map (gathered results) :=
  collapseFrom_eq fun _ _ => by simp

/-- Results of different keys stay as they are. -/
theorem collapseFrom_of_nodup (hnodup : (duplicateKeys results).Nodup)
    (hfresh : ∀ key ∈ duplicateKeys results, positions key = none) :
    collapseFrom retained positions results = retained ++ results := by
  induction results generalizing retained positions with
  | nil => exact (List.append_nil retained).symm
  | cons item results ih =>
    rw [collapseFrom]
    cases hkey : duplicateKey item with
    | none =>
      rw [duplicateKeys, List.filterMap_cons_none hkey] at hnodup hfresh
      simp only
      rw [ih hnodup hfresh, List.append_assoc, List.singleton_append]
    | some key =>
      rw [duplicateKeys, List.filterMap_cons_some hkey] at hnodup hfresh
      obtain ⟨hother, hnodup⟩ := List.nodup_cons.mp hnodup
      simp only [hfresh key List.mem_cons_self]
      rw [ih hnodup, List.append_assoc, List.singleton_append]
      intro other hmem
      rw [Function.update_of_ne (by rintro rfl; exact hother hmem)]
      exact hfresh other (List.mem_cons_of_mem key hmem)

theorem collapse_idempotent :
    collapseSourceDuplicates (collapseSourceDuplicates results) =
      collapseSourceDuplicates results := by
  refine collapseFrom_of_nodup ?_ fun _ _ => rfl
  rw [collapse_eq, keys_gathered]
  exact nodup_distinctFrom []

end Collapsed

section Refilled

variable {ranking : List (QueryResultItem Reference Rest)} {limit : ℕ}
  {excluded : Option (String × String)}

theorem excludeIdentity_isPrefix {results more : List (QueryResultItem Reference Rest)}
    (hresults : results <+: more) :
    excludeIdentity excluded results <+: excludeIdentity excluded more := by
  cases excluded with
  | none => exact hresults
  | some identity => exact hresults.filter _

variable [DecidableEq Reference]

/-- The loop ends with a window that fills the page or misses no distinct result. -/
theorem refill_ends {fuel window : ℕ} (hwindow : window ≤ 200) (hfuel : 200 ≤ window * 2 ^ fuel) :
    ∃ last ≤ 200, refill ranking.take limit excluded (fuel + 1) window =
        some (collapseSourceDuplicates (excludeIdentity excluded (ranking.take last))) ∧
      (limit ≤ (distinctItems (excludeIdentity excluded (ranking.take last))).length ∨
        ranking.take last = ranking.take 200) := by
  induction fuel generalizing window with
  | zero =>
    obtain rfl : window = 200 := by omega
    refine ⟨200, le_rfl, ?_, Or.inr rfl⟩
    rw [refill, if_pos rfl, ite_self]
  | succ fuel ih =>
    have hcount := congrArg List.length (@collapse_eq _ _ _ (excludeIdentity excluded (ranking.take window)))
    rw [List.length_map] at hcount
    rw [refill]
    split
    · next hstop =>
        refine ⟨window, hwindow, rfl, ?_⟩
        rw [hcount, List.length_take] at hstop
        refine hstop.imp_right fun hshort => ?_
        rw [List.take_of_length_le (by omega), List.take_of_length_le (by omega)]
    · split
      · next hfull => exact ⟨window, hwindow, rfl, Or.inr (by rw [hfull])⟩
      · refine ih (min_le_right _ _) ?_
        rw [Nat.pow_succ', ← Nat.mul_assoc] at hfuel
        rcases Nat.le_total (window * 2) 200 with hle | hle
        · rwa [Nat.min_eq_left hle]
        · rw [Nat.min_eq_right hle]
          exact Nat.le_mul_of_pos_right 200 (Nat.two_pow_pos fuel)

theorem bare_ranked {results : List (QueryResultItem Reference Rest)} :
    (ranked limit (collapseSourceDuplicates results)).map bare =
      ((distinctItems results).take limit).map bare := by
  rw [ranked, collapse_eq, ← List.map_take]
  refine List.ext_getElem? fun index => ?_
  rw [List.getElem?_map, List.getElem?_mapIdx, List.getElem?_map, List.getElem?_map,
    Option.map_map, Option.map_map]
  rfl

/-- A source-only query of a ranking, and what collapsing does to any results. -/
theorem sourceOnly_returns (fuel : ℕ) :
    (∃ window ≤ 200, ∃ page, sourceOnly ranking.take limit excluded (fuel + 6) = some page ∧
      page = ranked limit
        (collapseSourceDuplicates (excludeIdentity excluded (ranking.take window))) ∧
      page.map bare =
        ((distinctItems (excludeIdentity excluded (ranking.take 200))).take limit).map bare ∧
      page.length = min limit
        (distinctItems (excludeIdentity excluded (ranking.take 200))).length) ∧
    ∀ results : List (QueryResultItem Reference Rest),
      List.Forall₂ (Merges results) (distinctItems results) (collapseSourceDuplicates results) ∧
        collapseSourceDuplicates (collapseSourceDuplicates results) =
          collapseSourceDuplicates results := by
  constructor
  · have hfirst : 200 ≤ min (max (limit * 4) 12) 200 * 2 ^ (fuel + 5) := by
      have hdoubled : 1 ≤ 2 ^ fuel := Nat.one_le_two_pow
      have hwide : 12 ≤ min (max (limit * 4) 12) 200 := by omega
      calc 200 ≤ 12 * (1 * 2 ^ 5) := by decide
        _ ≤ min (max (limit * 4) 12) 200 * (2 ^ fuel * 2 ^ 5) :=
          Nat.mul_le_mul hwide (Nat.mul_le_mul_right _ hdoubled)
        _ = min (max (limit * 4) 12) 200 * 2 ^ (fuel + 5) := by rw [Nat.pow_add]
    obtain ⟨window, hwindow, hrefill, hfull⟩ :=
      @refill_ends _ _ ranking limit excluded _ _ _ (min_le_right _ 200) hfirst
    obtain ⟨rest, hrest⟩ : distinctItems (excludeIdentity excluded (ranking.take window)) <+:
        distinctItems (excludeIdentity excluded (ranking.take 200)) :=
      distinctFrom_isPrefix (excludeIdentity_isPrefix (List.take_prefix_take_left hwindow)) []
    have hsame : (distinctItems (excludeIdentity excluded (ranking.take window))).take limit =
        (distinctItems (excludeIdentity excluded (ranking.take 200))).take limit := by
      rcases hfull with hlong | hequal
      · rw [← hrest, List.take_append_of_le_length hlong]
      · rw [hequal]
    have hbare := @bare_ranked _ _ limit _ (excludeIdentity excluded (ranking.take window))
    rw [hsame] at hbare
    refine ⟨window, hwindow, _, by rw [sourceOnly, hrefill, Option.map_some], rfl, hbare, ?_⟩
    simpa using congrArg List.length hbare
  · intro results
    refine ⟨?_, collapse_idempotent⟩
    rw [collapse_eq, List.forall₂_map_right_iff, List.forall₂_same]
    exact fun kept _ => gathered_merges

end Refilled

end Pallium.Fusion
