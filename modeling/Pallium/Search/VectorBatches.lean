import Pallium.Search.Vector

/-!
# Reading a vector ranking in batches

A query for one kind of target searches the index again with twice as many hits, until
the search has covered as many entries as the index held at the start.  Between two
batches the query may remove entries that it has seen.  Those that are left of them are
the front of the ranking, and the next search reaches behind them.
-/

namespace Pallium.Search

/-- A vector index as a search ranks it, the best entry first. -/
structure HitIndex where
  entries : List VectorHit
  distinct : (entries.map VectorHit.entryId).Nodup
  descending : entries.Pairwise fun first later => later.similarity ≤ first.similarity

namespace HitIndex

def entryCount (index : HitIndex) : ℕ := index.entries.length

def search (index : HitIndex) (k : ℕ) : List VectorHit := index.entries.take k

/-- The index after `remove` of some entries. -/
def without (index : HitIndex) (removed : String → Bool) : HitIndex where
  entries := index.entries.filter fun hit => !removed hit.entryId
  distinct := (List.filter_sublist.map _).nodup index.distinct
  descending := index.descending.sublist List.filter_sublist

end HitIndex

/-- What a query does with the batches so far: it leaves the loop, or it removes some of
the entries that they contain. -/
abbrev BatchConsumer : Type := List (List VectorHit) → Option (String → Bool)

/-- The hits of a batch that were not seen before. -/
def newHits (seenIds : List String) : List VectorHit → List VectorHit
  | [] => []
  | hit :: batch =>
    if hit.entryId ∈ seenIds then newHits seenIds batch
    else hit :: newHits (hit.entryId :: seenIds) batch

/-- The loop of `_iter_vector_hit_batches`: what it yields from now on, and the index in
the end. -/
def expandBatches (consumer : BatchConsumer) (horizon searchK : ℕ) (yielded : List (List VectorHit))
    (index : HitIndex) : List (List VectorHit) × HitIndex :=
  let batch := index.search searchK
  let fresh := newHits (yielded.flatten.map VectorHit.entryId) batch
  if fresh = [] then ([], index)
  else
    let seen := yielded ++ [fresh]
    match consumer seen with
    | none => ([fresh], index)
    | some removes =>
      let left := index.without fun entryId =>
        removes entryId && (seen.flatten.map VectorHit.entryId).contains entryId
      if batch = [] ∨ batch.length < searchK ∨ horizon ≤ searchK then ([fresh], left)
      else
        let later := expandBatches consumer horizon (min (searchK * 2) horizon) seen left
        (fresh :: later.1, later.2)
termination_by horizon - searchK
decreasing_by
  rename_i hgoes
  have hpositive : 0 < searchK := by
    rw [Nat.pos_iff_ne_zero]
    rintro rfl
    exact hgoes (Or.inl rfl)
  omega

/-- `_iter_vector_hit_batches` with a kind of target. -/
def iterVectorHitBatches (consumer : BatchConsumer) (limit : ℤ) (index : HitIndex) :
    List (List VectorHit) × HitIndex :=
  let horizon := index.entryCount
  if horizon = 0 ∨ limit ≤ 0 then ([], index)
  else expandBatches consumer horizon (min (max (limit * 8) 1).toNat horizon) [] index

theorem newHits_eq_filter {seenIds : List String} {batch : List VectorHit}
    (hdistinct : (batch.map VectorHit.entryId).Nodup) :
    newHits seenIds batch = batch.filter fun hit => hit.entryId ∉ seenIds := by
  induction batch generalizing seenIds with
  | nil => rfl
  | cons hit batch ih =>
    obtain ⟨hnew, hrest⟩ := List.nodup_cons.mp hdistinct
    rw [newHits]
    split
    · next hseen =>
        rw [ih hrest, List.filter_cons_of_neg (by simpa using hseen)]
    · next hunseen =>
        rw [ih hrest, List.filter_cons_of_pos (by simpa using hunseen)]
        refine congrArg (hit :: ·) (List.filter_congr fun other hother => ?_)
        have hne : other.entryId ≠ hit.entryId := fun hsame =>
          hnew (hsame ▸ List.mem_map_of_mem hother)
        refine decide_eq_decide.mpr ?_
        rw [List.mem_cons, not_or]
        exact and_iff_right hne

/-- What is left of the entries that were seen is the front of the ranking, not longer
than the last search, and the others follow. -/
structure Expanding (yielded : List (List VectorHit)) (searchK : ℕ) (index : HitIndex)
    (seen unseen : List VectorHit) : Prop where
  split : index.entries = seen ++ unseen
  known : ∀ hit ∈ seen, hit.entryId ∈ yielded.flatten.map VectorHit.entryId
  unknown : ∀ hit ∈ unseen, hit.entryId ∉ yielded.flatten.map VectorHit.entryId
  reaches : seen.length < searchK

section Loop

variable {consumer : BatchConsumer} {horizon searchK : ℕ} {yielded : List (List VectorHit)}
  {index : HitIndex} {seen unseen : List VectorHit}

variable (hexpanding : Expanding yielded searchK index seen unseen)
include hexpanding

theorem Expanding.newHits_search :
    newHits (yielded.flatten.map VectorHit.entryId) (index.search searchK) =
      unseen.take (searchK - seen.length) := by
  have hsearch : index.search searchK = seen ++ unseen.take (searchK - seen.length) := by
    rw [HitIndex.search, hexpanding.split, List.take_append,
      List.take_of_length_le hexpanding.reaches.le]
  have hdistinct : ((index.search searchK).map VectorHit.entryId).Nodup :=
    ((List.take_sublist _ _).map _).nodup index.distinct
  rw [newHits_eq_filter hdistinct, hsearch, List.filter_append]
  have hseen : (seen.filter fun hit =>
      hit.entryId ∉ yielded.flatten.map VectorHit.entryId) = [] :=
    List.filter_eq_nil_iff.mpr fun hit hhit => by simpa using hexpanding.known hit hhit
  have hunseen : ((unseen.take (searchK - seen.length)).filter fun hit =>
      hit.entryId ∉ yielded.flatten.map VectorHit.entryId) =
        unseen.take (searchK - seen.length) :=
    List.filter_eq_self.mpr fun hit hhit =>
      decide_eq_true (hexpanding.unknown hit (List.mem_of_mem_take hhit))
  rw [hseen, hunseen, List.nil_append]

/-- The next search finds the loop as the last one did. -/
theorem Expanding.next
    (removes : String → Bool) {nextK : ℕ} (hnext : searchK < nextK) {fresh : List VectorHit}
    (hfresh : fresh = unseen.take (searchK - seen.length)) :
    Expanding (yielded ++ [fresh]) nextK
      (index.without fun entryId => removes entryId &&
        ((yielded ++ [fresh]).flatten.map VectorHit.entryId).contains entryId)
      ((seen ++ fresh).filter fun hit => !(removes hit.entryId &&
        ((yielded ++ [fresh]).flatten.map VectorHit.entryId).contains hit.entryId))
      (unseen.drop (searchK - seen.length)) := by
  have hentries : index.entries = (seen ++ fresh) ++ unseen.drop (searchK - seen.length) := by
    rw [hfresh, List.append_assoc, List.take_append_drop]
    exact hexpanding.split
  have hids : (yielded ++ [fresh]).flatten.map VectorHit.entryId =
      yielded.flatten.map VectorHit.entryId ++ fresh.map VectorHit.entryId := by
    rw [List.flatten_append, List.flatten_singleton, List.map_append]
  have hunseen : ∀ hit ∈ unseen.drop (searchK - seen.length),
      hit.entryId ∉ (yielded ++ [fresh]).flatten.map VectorHit.entryId := by
    intro hit hhit hmem
    rw [hids] at hmem
    rcases List.mem_append.mp hmem with hbefore | hnow
    · exact hexpanding.unknown hit (List.mem_of_mem_drop hhit) hbefore
    · have hdistinct := index.distinct
      rw [hentries, List.map_append, List.map_append] at hdistinct
      exact (List.nodup_append.mp hdistinct).2.2 _ (List.mem_append_right _ hnow) _
        (List.mem_map_of_mem hhit) rfl
  refine ⟨?_, ?_, hunseen, ?_⟩
  · have hkept : ((unseen.drop (searchK - seen.length)).filter fun hit =>
        !(removes hit.entryId &&
          ((yielded ++ [fresh]).flatten.map VectorHit.entryId).contains hit.entryId)) =
            unseen.drop (searchK - seen.length) := by
      refine List.filter_eq_self.mpr fun hit hhit => ?_
      have hout : ((yielded ++ [fresh]).flatten.map VectorHit.entryId).contains hit.entryId =
          false := by
        rw [List.contains_eq_mem, decide_eq_false (hunseen hit hhit)]
      rw [hout, Bool.and_false, Bool.not_false]
    change index.entries.filter _ = _
    rw [hentries, List.filter_append, hkept]
  · intro hit hhit
    rw [hids]
    rcases List.mem_append.mp (List.mem_filter.mp hhit).1 with hbefore | hnow
    · exact List.mem_append_left _ (hexpanding.known hit hbefore)
    · exact List.mem_append_right _ (List.mem_map_of_mem hnow)
  · refine (List.length_filter_le _ _).trans_lt ?_
    have hreaches := hexpanding.reaches
    rw [List.length_append, hfresh, List.length_take]
    omega

theorem Expanding.batches (consumer : BatchConsumer)
    (hhorizon : index.entries.length ≤ horizon) (hsearch : searchK ≤ horizon) :
    let run := expandBatches consumer horizon searchK yielded index
    run.1.flatten <+: unseen ∧
      ((∀ batches, (consumer batches).isSome) →
        ∀ hit ∈ run.2.entries, hit ∈ seen ∨ hit ∈ run.1.flatten) := by
  induction hfuel : horizon - searchK using Nat.strong_induction_on generalizing searchK yielded
    index seen unseen with
  | _ fuel ih =>
    have hnew := hexpanding.newHits_search
    have hreaches := hexpanding.reaches
    rw [expandBatches, hnew]
    generalize hfresh : unseen.take (searchK - seen.length) = fresh
    have hprefix : fresh <+: unseen := hfresh ▸ List.take_prefix _ _
    dsimp only
    split
    · next hnone =>
        subst hnone
        have hrest : unseen = [] := by
          rcases List.take_eq_nil_iff.mp hfresh with hzero | hnil
          · omega
          · exact hnil
        refine ⟨List.nil_prefix, fun _ hit hhit => Or.inl ?_⟩
        rw [hexpanding.split, hrest, List.append_nil] at hhit
        exact hhit
    · next hsome =>
      split
      · next hleaves =>
          refine ⟨by rwa [List.flatten_singleton], fun htakes => ?_⟩
          have hstays := htakes (yielded ++ [fresh])
          rw [hleaves] at hstays
          cases hstays
      · next removes hremoves =>
          split
          · next hstops =>
              refine ⟨by rwa [List.flatten_singleton], fun _ hit hhit => ?_⟩
              have hall : unseen = fresh := by
                rw [← hfresh]
                refine (List.take_of_length_le ?_).symm
                have hlength := congrArg List.length hexpanding.split
                rw [List.length_append] at hlength
                have hbatch : (index.search searchK).length = min searchK index.entries.length :=
                  List.length_take
                rcases hstops with hempty | hshort | hlast
                · rw [hempty, List.length_nil] at hbatch
                  omega
                · omega
                · omega
              have hin := (List.mem_filter.mp hhit).1
              rw [hexpanding.split, hall] at hin
              rw [List.flatten_singleton]
              exact List.mem_append.mp hin
          · next hgoes =>
              rw [not_or, not_or, not_le] at hgoes
              have hlater := ih (horizon - min (searchK * 2) horizon) (by omega)
                (hexpanding.next removes (by omega : searchK < min (searchK * 2) horizon)
                  hfresh.symm)
                ((List.length_filter_le _ _).trans hhorizon) (min_le_right _ _) rfl
              refine ⟨?_, fun htakes hit hhit => ?_⟩
              · rw [List.flatten_cons]
                have hsplit : fresh ++ unseen.drop (searchK - seen.length) = unseen := by
                  rw [← hfresh, List.take_append_drop]
                have hfollows := (List.prefix_append_right_inj fresh).mpr hlater.1
                rwa [hsplit] at hfollows
              · rw [List.flatten_cons]
                rcases hlater.2 htakes hit hhit with hfront | hbehind
                · rcases List.mem_append.mp (List.mem_filter.mp hfront).1 with hbefore | hnow
                  · exact Or.inl hbefore
                  · exact Or.inr (List.mem_append_left _ hnow)
                · exact Or.inr (List.mem_append_right _ hbehind)

end Loop

section Whole

variable (consumer : BatchConsumer) (limit : ℤ) (index : HitIndex)

theorem iterVectorHitBatches_spec :
    (iterVectorHitBatches consumer limit index).1.flatten <+: index.entries ∧
      (0 < limit → (∀ batches, (consumer batches).isSome) →
        ∀ hit ∈ (iterVectorHitBatches consumer limit index).2.entries,
          hit ∈ (iterVectorHitBatches consumer limit index).1.flatten) := by
  unfold iterVectorHitBatches
  dsimp only
  split
  · next hnothing =>
      refine ⟨List.nil_prefix, fun hlimit _ hit hhit => ?_⟩
      rcases hnothing with hempty | hlimit'
      · rw [List.length_eq_zero_iff.mp hempty] at hhit
        exact absurd hhit List.not_mem_nil
      · exact absurd hlimit (not_lt.mpr hlimit')
  · next hsearches =>
      rw [not_or] at hsearches
      have hpositive : 0 < min (max (limit * 8) 1).toNat index.entryCount := by
        have hcount := Nat.pos_of_ne_zero hsearches.1
        omega
      have hstart : Expanding [] (min (max (limit * 8) 1).toNat index.entryCount) index []
          index.entries :=
        ⟨rfl, List.forall_mem_nil _, fun _ _ => List.not_mem_nil, hpositive⟩
      have hbatches := hstart.batches consumer le_rfl (min_le_right _ _)
      refine ⟨hbatches.1, fun _ htakes hit hhit => ?_⟩
      exact (hbatches.2 htakes hit hhit).resolve_left List.not_mem_nil

/-- The batches as the index answers them to a query. -/
def HitIndex.answers (scoreSubset : List String → List VectorHit) : VectorAnswers where
  batches := (iterVectorHitBatches consumer limit index).1
  scoreSubset := scoreSubset
  descending := index.descending.sublist (iterVectorHitBatches_spec consumer limit index).1.sublist

/-- Whatever a query does between the batches, the loop ends, and the batches are the
front of the ranking at the start, without an entry twice.  For a positive limit they
contain every entry that stays in the index, if the query takes all of them; for any
other limit there are none. -/
theorem batches_cover_ranking :
    (iterVectorHitBatches consumer limit index).1.flatten <+: index.entries ∧
      ((iterVectorHitBatches consumer limit index).1.flatten.map VectorHit.entryId).Nodup ∧
      (0 < limit → (∀ batches, (consumer batches).isSome) →
        ∀ hit ∈ (iterVectorHitBatches consumer limit index).2.entries,
          hit ∈ (iterVectorHitBatches consumer limit index).1.flatten) ∧
      (limit ≤ 0 → (iterVectorHitBatches consumer limit index).1 = []) := by
  have hspec := iterVectorHitBatches_spec consumer limit index
  refine ⟨hspec.1, (hspec.1.sublist.map _).nodup index.distinct, hspec.2, fun hlimit => ?_⟩
  rw [iterVectorHitBatches, if_pos (Or.inr hlimit)]

end Whole

/-- An index of one entry. -/
def oneHit : HitIndex where
  entries := [⟨"entry", 1⟩]
  distinct := List.nodup_singleton _
  descending := List.pairwise_singleton _ _

theorem batches_cover_one_hit :
    (∀ hit ∈ (iterVectorHitBatches (fun _ => some fun _ => false) 1 oneHit).2.entries,
        hit ∈ (iterVectorHitBatches (fun _ => some fun _ => false) 1 oneHit).1.flatten) ∧
      (iterVectorHitBatches (fun _ => some fun _ => false) 0 oneHit).1 = [] :=
  ⟨(batches_cover_ranking (fun _ => some fun _ => false) 1 oneHit).2.2.1 (by decide) fun _ => rfl,
    (batches_cover_ranking (fun _ => some fun _ => false) 0 oneHit).2.2.2 le_rfl⟩

/-- With the limit zero an entry that stays is not yielded. -/
theorem batches_miss_at_zero :
    ∃ hit ∈ (iterVectorHitBatches (fun _ => some fun _ => false) 0 oneHit).2.entries,
      hit ∉ (iterVectorHitBatches (fun _ => some fun _ => false) 0 oneHit).1.flatten := by
  rw [iterVectorHitBatches, if_pos (Or.inr le_rfl)]
  exact ⟨⟨"entry", 1⟩, List.mem_singleton_self _, List.not_mem_nil⟩

end Pallium.Search
