import Mathlib

/-!
# Rankings

Rows have a target and a score, and a target ranks by its best row.  The targets of
sorted rows, each at its first row, come out ranked; a window of sorted rows has the
same leaders as all rows exactly if enough targets own a row in it.
-/

namespace Pallium.Ranking

variable {Row Target Score : Type*} [DecidableEq Target] [LinearOrder Score]
variable (targetOf : Row → Target) (scoreOf : Row → Score)

variable {limit : ℕ} {results : List Target}

/-- The first row of each target, without the targets seen before. -/
def firsts : List Target → List Row → List Row
  | _, [] => []
  | seen, row :: rows =>
    if targetOf row ∈ seen then firsts seen rows
    else row :: firsts (targetOf row :: seen) rows

/-- The best row of the lower target scores at most as high as the best of the other. -/
def RanksBelow (rows : List Row) (lower upper : Target) : Prop :=
  ∀ row ∈ rows, targetOf row = lower →
    ∃ better ∈ rows, targetOf better = upper ∧ scoreOf row ≤ scoreOf better

/-- The number of targets that own a row. -/
def targetCount (rows : List Row) : ℕ := (rows.map targetOf).toFinset.card

/-- The first targets of a ranking, as many as are asked for and there are. -/
structure Leaders (rows : List Row) (limit : ℕ) (results : List Target) : Prop where
  nodup : results.Nodup
  mem : ∀ target ∈ results, target ∈ rows.map targetOf
  length : results.length = min limit (targetCount targetOf rows)
  ranked : results.Pairwise fun upper lower => RanksBelow targetOf scoreOf rows lower upper
  ahead : ∀ target ∈ rows.map targetOf, target ∉ results →
    ∀ upper ∈ results, RanksBelow targetOf scoreOf rows target upper

variable {targetOf scoreOf} {rows : List Row} {seen : List Target}

theorem firsts_sublist (seen : List Target) (rows : List Row) :
    (firsts targetOf seen rows).Sublist rows := by
  induction rows generalizing seen with
  | nil => exact List.Sublist.refl _
  | cons head rest ih =>
    rw [firsts]
    split
    · exact (ih seen).cons head
    · exact (ih _).cons_cons head

theorem mem_targets_firsts {target : Target} :
    target ∈ (firsts targetOf seen rows).map targetOf ↔
      target ∈ rows.map targetOf ∧ target ∉ seen := by
  induction rows generalizing seen with
  | nil => simp [firsts]
  | cons head rest ih =>
    rw [firsts]
    split
    · next hseen =>
        rw [ih, List.map_cons, List.mem_cons]
        constructor
        · exact fun ⟨hrest, hnew⟩ => ⟨Or.inr hrest, hnew⟩
        · rintro ⟨rfl | hrest, hnew⟩
          · exact absurd hseen hnew
          · exact ⟨hrest, hnew⟩
    · next hfresh =>
        rw [List.map_cons, List.mem_cons, ih, List.map_cons, List.mem_cons, List.mem_cons, not_or]
        constructor
        · rintro (rfl | ⟨hrest, -, hnew⟩)
          · exact ⟨Or.inl rfl, hfresh⟩
          · exact ⟨Or.inr hrest, hnew⟩
        · rintro ⟨hhead | hrest, hnew⟩
          · exact Or.inl hhead
          · by_cases hsame : target = targetOf head
            · exact Or.inl hsame
            · exact Or.inr ⟨hrest, hsame, hnew⟩

theorem nodup_targets_firsts (seen : List Target) (rows : List Row) :
    ((firsts targetOf seen rows).map targetOf).Nodup := by
  induction rows generalizing seen with
  | nil => exact List.nodup_nil
  | cons head rest ih =>
    rw [firsts]
    split
    · exact ih seen
    · rw [List.map_cons, List.nodup_cons]
      refine ⟨fun hmem => ?_, ih _⟩
      exact (mem_targets_firsts.mp hmem).2 List.mem_cons_self

theorem length_firsts (rows : List Row) :
    (firsts targetOf [] rows).length = targetCount targetOf rows := by
  have hsame : ((firsts targetOf [] rows).map targetOf).toFinset =
      (rows.map targetOf).toFinset := by
    ext target
    rw [List.mem_toFinset, List.mem_toFinset, mem_targets_firsts]
    exact and_iff_left List.not_mem_nil
  rw [targetCount, ← hsame, List.toFinset_card_of_nodup (nodup_targets_firsts [] rows),
    List.length_map]

theorem firsts_congr {others : List Target}
    (hsame : ∀ target ∈ rows.map targetOf, target ∈ seen ↔ target ∈ others) :
    firsts targetOf seen rows = firsts targetOf others rows := by
  induction rows generalizing seen others with
  | nil => rfl
  | cons head rest ih =>
    rw [List.map_cons, List.forall_mem_cons] at hsame
    rw [firsts, firsts]
    by_cases hseen : targetOf head ∈ seen
    · rw [if_pos hseen, if_pos (hsame.1.mp hseen), ih hsame.2]
    · rw [if_neg hseen, if_neg fun hother => hseen (hsame.1.mpr hother)]
      congr 1
      apply ih
      intro target htarget
      rw [List.mem_cons, List.mem_cons, hsame.2 target htarget]

theorem mem_firsts {target : Target} {seen targets : List Target} :
    target ∈ firsts (fun target => target) seen targets ↔ target ∈ targets ∧ target ∉ seen := by
  have hmem := @mem_targets_firsts _ _ _ (fun target : Target => target) targets seen target
  rwa [List.map_id', List.map_id'] at hmem

theorem append_firsts (seen : List Target) (target : Target) {targets : List Target} :
    (if target ∈ seen then seen else seen ++ [target]) ++ firsts (fun target => target)
        (if target ∈ seen then seen else seen ++ [target]) targets =
      seen ++ firsts (fun target => target) seen (target :: targets) := by
  rw [firsts]
  split
  · rfl
  · rw [List.append_assoc, List.singleton_append]
    congr 2
    exact firsts_congr fun other _ => by simp [or_comm]

theorem firsts_append {later : List Target}
    (hlater : ∀ target, target ∈ later ↔ target ∈ rows.map targetOf ∨ target ∈ seen)
    (rest : List Row) :
    firsts targetOf seen (rows ++ rest) =
      firsts targetOf seen rows ++ firsts targetOf later rest := by
  induction rows generalizing seen with
  | nil =>
    apply firsts_congr
    intro target _
    rw [hlater]
    exact (or_iff_right List.not_mem_nil).symm
  | cons head tail ih =>
    rw [List.cons_append, firsts, firsts]
    split
    · next hseen =>
        apply ih
        intro target
        rw [hlater, List.map_cons, List.mem_cons]
        constructor
        · rintro ((rfl | hmem) | hmem)
          · exact Or.inr hseen
          · exact Or.inl hmem
          · exact Or.inr hmem
        · rintro (hmem | hmem)
          · exact Or.inl (Or.inr hmem)
          · exact Or.inr hmem
    · rw [List.cons_append]
      congr 1
      apply ih
      intro target
      rw [hlater, List.map_cons, List.mem_cons, List.mem_cons]
      tauto

theorem filter_firsts (picks : Target → Bool) (seen : List Target) (rows : List Row) :
    (firsts targetOf seen rows).filter (fun row => picks (targetOf row)) =
      firsts targetOf seen (rows.filter fun row => picks (targetOf row)) := by
  induction rows generalizing seen with
  | nil => rfl
  | cons head rest ih =>
    by_cases hpicks : picks (targetOf head) = true
    · have hfilter : ∀ rows, (head :: rows).filter (fun row => picks (targetOf row)) =
          head :: rows.filter fun row => picks (targetOf row) :=
        fun rows => List.filter_cons_of_pos hpicks
      rw [hfilter, firsts, firsts]
      split
      · exact ih seen
      · rw [hfilter, ih]
    · have hfilter : ∀ rows, (head :: rows).filter (fun row => picks (targetOf row)) =
          rows.filter fun row => picks (targetOf row) :=
        fun rows => List.filter_cons_of_neg hpicks
      rw [hfilter, firsts]
      split
      · exact ih seen
      · rw [hfilter, ih]
        -- no picked row has the target of a row that is not picked
        apply firsts_congr
        intro target htarget
        obtain ⟨row, hrow, rfl⟩ := List.mem_map.mp htarget
        rw [List.mem_cons]
        refine or_iff_right fun hsame => hpicks ?_
        rw [← hsame]
        exact (List.mem_filter.mp hrow).2

theorem firsts_of_nodup (hnodup : (rows.map targetOf).Nodup) : firsts targetOf [] rows = rows := by
  have hlength : (firsts targetOf [] rows).length = rows.length := by
    rw [length_firsts, targetCount, List.toFinset_card_of_nodup hnodup, List.length_map]
  exact (firsts_sublist [] rows).eq_of_length hlength

theorem pairwise_firsts {relation : Row → Row → Prop} (hrows : rows.Pairwise relation)
    (seen : List Target) : (firsts targetOf seen rows).Pairwise relation :=
  hrows.sublist (firsts_sublist seen rows)

section

variable (hsorted : rows.Pairwise fun first later => scoreOf later ≤ scoreOf first)
include hsorted

theorem exists_first_of_sorted {row : Row} (hrow : row ∈ rows) (hnew : targetOf row ∉ seen) :
    ∃ first ∈ firsts targetOf seen rows,
      targetOf first = targetOf row ∧ scoreOf row ≤ scoreOf first := by
  induction rows generalizing seen with
  | nil => exact absurd hrow List.not_mem_nil
  | cons head rest ih =>
    rw [List.pairwise_cons] at hsorted
    rw [firsts]
    split
    · next hseen =>
        rcases List.mem_cons.mp hrow with rfl | hrest
        · exact absurd hseen hnew
        · exact ih hsorted.2 hrest hnew
    · rcases List.mem_cons.mp hrow with rfl | hrest
      · exact ⟨row, List.mem_cons_self, rfl, le_refl _⟩
      · by_cases hsame : targetOf row = targetOf head
        · exact ⟨head, List.mem_cons_self, hsame.symm, hsorted.1 row hrest⟩
        · have hunseen : targetOf row ∉ targetOf head :: seen := by
            rw [List.mem_cons, not_or]
            exact ⟨hsame, hnew⟩
          obtain ⟨first, hfirst, htarget, hscore⟩ := ih hsorted.2 hrest hunseen
          exact ⟨first, List.mem_cons_of_mem _ hfirst, htarget, hscore⟩

/-- Targets rank like their first rows. -/
theorem ranksBelow_of_firsts {lower upper : Row} (hlower : lower ∈ firsts targetOf [] rows)
    (hupper : upper ∈ firsts targetOf [] rows) (hscore : scoreOf lower ≤ scoreOf upper) :
    RanksBelow targetOf scoreOf rows (targetOf lower) (targetOf upper) := by
  intro row hrow htarget
  obtain ⟨first, hfirst, hsame, hbest⟩ :=
    exists_first_of_sorted hsorted hrow (List.not_mem_nil (a := targetOf row))
  have hfirstLower : first = lower :=
    List.inj_on_of_nodup_map (nodup_targets_firsts [] rows) hfirst hlower (hsame.trans htarget)
  refine ⟨upper, (firsts_sublist [] rows).subset hupper, rfl, ?_⟩
  exact (hfirstLower ▸ hbest).trans hscore

theorem leaders_firsts (limit : ℕ) :
    Leaders targetOf scoreOf rows limit (((firsts targetOf [] rows).take limit).map targetOf) := by
  have hsplit : (firsts targetOf [] rows).take limit ++ (firsts targetOf [] rows).drop limit =
      firsts targetOf [] rows :=
    List.take_append_drop limit _
  have hordered := @pairwise_firsts _ _ _ targetOf rows _ hsorted []
  rw [← hsplit, List.pairwise_append] at hordered
  obtain ⟨htaken, -, hacross⟩ := hordered
  have htake : ∀ row ∈ (firsts targetOf [] rows).take limit, row ∈ firsts targetOf [] rows :=
    fun row hrow => List.mem_of_mem_take hrow
  refine ⟨?_, ?_, ?_, ?_, ?_⟩
  · exact ((List.take_sublist limit _).map targetOf).nodup (nodup_targets_firsts [] rows)
  · intro target htarget
    obtain ⟨row, hrow, rfl⟩ := List.mem_map.mp htarget
    exact List.mem_map_of_mem ((firsts_sublist [] rows).subset (htake row hrow))
  · rw [List.length_map, List.length_take, length_firsts]
  · rw [List.pairwise_map]
    exact htaken.imp_of_mem fun hupper hlower hscore =>
      ranksBelow_of_firsts hsorted (htake _ hlower) (htake _ hupper) hscore
  · intro target htarget hleft upper hupper
    obtain ⟨first, hfirst, rfl⟩ := List.mem_map.mp hupper
    have hfound : target ∈ (firsts targetOf [] rows).map targetOf :=
      mem_targets_firsts.mpr ⟨htarget, List.not_mem_nil⟩
    obtain ⟨row, hrow, rfl⟩ := List.mem_map.mp hfound
    have hdropped : row ∈ (firsts targetOf [] rows).drop limit := by
      rw [← hsplit, List.mem_append] at hrow
      exact hrow.resolve_left fun htaken => hleft (List.mem_map_of_mem htaken)
    exact ranksBelow_of_firsts hsorted hrow (htake first hfirst) (hacross first hfirst row hdropped)

end

theorem Leaders.of_rows {others : List Row}
    (htargets : ∀ target, target ∈ rows.map targetOf ↔ target ∈ others.map targetOf)
    (hbelow : ∀ lower upper, RanksBelow targetOf scoreOf rows lower upper →
      RanksBelow targetOf scoreOf others lower upper)
    (hleaders : Leaders targetOf scoreOf rows limit results) :
    Leaders targetOf scoreOf others limit results := by
  have hcount : targetCount targetOf rows = targetCount targetOf others := by
    rw [targetCount, targetCount]
    congr 1
    ext target
    rw [List.mem_toFinset, List.mem_toFinset, htargets]
  exact {
    nodup := hleaders.nodup
    mem := fun target htarget => (htargets target).mp (hleaders.mem target htarget)
    length := hleaders.length.trans (by rw [hcount])
    ranked := hleaders.ranked.imp fun hranks => hbelow _ _ hranks
    ahead := fun target htarget hleft upper hupper =>
      hbelow _ _ (hleaders.ahead target ((htargets target).mpr htarget) hleft upper hupper) }

theorem Leaders.congr {others : List Row} (hsame : ∀ row, row ∈ rows ↔ row ∈ others)
    (hleaders : Leaders targetOf scoreOf rows limit results) :
    Leaders targetOf scoreOf others limit results := by
  refine hleaders.of_rows (fun target => by simp only [List.mem_map, hsame]) ?_
  intro lower upper hranks row hrow htarget
  obtain ⟨better, hbetter, hupper⟩ := hranks row ((hsame row).mpr hrow) htarget
  exact ⟨better, (hsame better).mp hbetter, hupper⟩

theorem Leaders.of_firsts (hsorted : rows.Pairwise fun first later =>
    scoreOf later ≤ scoreOf first)
    (hleaders : Leaders targetOf scoreOf (firsts targetOf [] rows) limit results) :
    Leaders targetOf scoreOf rows limit results := by
  refine hleaders.of_rows
    (fun target => mem_targets_firsts.trans (and_iff_left List.not_mem_nil)) ?_
  intro lower upper hranks row hrow htarget
  obtain ⟨first, hfirst, hsame, hbest⟩ :=
    exists_first_of_sorted hsorted hrow (List.not_mem_nil (a := targetOf row))
  obtain ⟨better, hbetter, hupper, hscore⟩ := hranks first hfirst (hsame.trans htarget)
  exact ⟨better, (firsts_sublist [] rows).subset hbetter, hupper, hbest.trans hscore⟩

theorem targetCount_append_le (window rest : List Row) :
    targetCount targetOf window ≤ targetCount targetOf (window ++ rest) := by
  apply Finset.card_le_card
  intro target htarget
  rw [List.mem_toFinset] at htarget ⊢
  rw [List.map_append]
  exact List.mem_append_left _ htarget

/-- The leaders of a window of sorted rows lead all rows exactly if enough targets own a
row in the window. -/
theorem leaders_window_iff {window rest : List Row}
    (hacross : ∀ first ∈ window, ∀ later ∈ rest, scoreOf later ≤ scoreOf first)
    (hleaders : Leaders targetOf scoreOf window limit results) :
    Leaders targetOf scoreOf (window ++ rest) limit results ↔
      min limit (targetCount targetOf (window ++ rest)) ≤ targetCount targetOf window := by
  constructor
  · intro hall
    rw [← hall.length, hleaders.length]
    exact min_le_right _ _
  · intro henough
    have hbelow : ∀ lower, ∀ upper ∈ results,
        RanksBelow targetOf scoreOf window lower upper →
          RanksBelow targetOf scoreOf (window ++ rest) lower upper := by
      intro lower upper hupper hranks row hrow htarget
      rcases List.mem_append.mp hrow with hwindow | hrest
      · obtain ⟨better, hbetter, hbest⟩ := hranks row hwindow htarget
        exact ⟨better, List.mem_append_left _ hbetter, hbest⟩
      · obtain ⟨owner, howner, rfl⟩ := List.mem_map.mp (hleaders.mem upper hupper)
        exact ⟨owner, List.mem_append_left _ howner, rfl, hacross owner howner row hrest⟩
    refine ⟨hleaders.nodup, ?_, ?_, ?_, ?_⟩
    · intro target htarget
      rw [List.map_append]
      exact List.mem_append_left _ (hleaders.mem target htarget)
    · rw [hleaders.length]
      apply le_antisymm
      · exact min_le_min_left limit (targetCount_append_le window rest)
      · exact le_min (min_le_left _ _) henough
    · exact hleaders.ranked.imp_of_mem fun hupper _ hranks => hbelow _ _ hupper hranks
    · intro target _ hleft upper hupper
      apply hbelow target upper hupper
      by_cases hwindow : target ∈ window.map targetOf
      · exact hleaders.ahead target hwindow hleft upper hupper
      · intro row hrow htarget
        exact absurd (List.mem_map.mpr ⟨row, hrow, htarget⟩) hwindow

theorem targetCount_of_nodup (hnodup : (rows.map targetOf).Nodup) :
    targetCount targetOf rows = rows.length := by
  rw [targetCount, List.toFinset_card_of_nodup hnodup, List.length_map]

theorem Leaders.of_take_firsts (hsorted : rows.Pairwise fun first later =>
    scoreOf later ≤ scoreOf first)
    (hleaders : Leaders targetOf scoreOf ((firsts targetOf [] rows).take limit) limit results) :
    Leaders targetOf scoreOf rows limit results := by
  have hsplit : (firsts targetOf [] rows).take limit ++ (firsts targetOf [] rows).drop limit =
      firsts targetOf [] rows :=
    List.take_append_drop limit _
  have hnodup := @nodup_targets_firsts _ _ _ targetOf [] rows
  have hordered := @pairwise_firsts _ _ _ targetOf rows _ hsorted []
  rw [← hsplit, List.pairwise_append] at hordered
  apply Leaders.of_firsts hsorted
  rw [← hsplit, leaders_window_iff hordered.2.2 hleaders, hsplit, targetCount_of_nodup hnodup,
    targetCount_of_nodup (((List.take_sublist limit _).map targetOf).nodup hnodup),
    List.length_take]

theorem targetCount_eq_zero_iff : targetCount targetOf rows = 0 ↔ rows = [] := by
  rw [targetCount, Finset.card_eq_zero, List.toFinset_eq_empty_iff, List.map_eq_nil_iff]

theorem leaders_nil_iff :
    Leaders targetOf scoreOf [] limit results ↔ results = [] := by
  constructor
  · intro hleaders
    have hlength := hleaders.length
    rw [targetCount_eq_zero_iff.mpr rfl, Nat.min_zero] at hlength
    exact List.eq_nil_of_length_eq_zero hlength
  · rintro rfl
    exact {
      nodup := List.nodup_nil
      mem := nofun
      length := by rw [targetCount_eq_zero_iff.mpr rfl, Nat.min_zero, List.length_nil]
      ranked := List.Pairwise.nil
      ahead := nofun }

end Pallium.Ranking
