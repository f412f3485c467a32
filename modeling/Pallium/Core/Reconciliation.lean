import Pallium.Core.Paging

/-!
# Reconciling a replica with its source in bounded pages

A replica holds a finite set of ids that should equal the ids of its source.
One step drops the unstored ids of one page of the replica and copies one page
of the source, each page behind its own cursor; it does nothing when the two
sets have the same number of elements.  From every start the replica becomes
constant, and it can only stop at a wrong set by the count comparison.
-/

namespace Pallium.Reconciliation

open Pallium.Paging

variable {ι : Type*} [LinearOrder ι]

/-- The replica's ids and the cursors of its two sweeps. -/
structure Replica (ι : Type*) where
  known : Finset ι
  sourceCursor : Option ι
  staleCursor : Option ι

/-- One page-bounded step.  `stored` holds the ids that are never dropped. -/
def Replica.step (source stored : Finset ι) (batch : ℕ) (replica : Replica ι) : Replica ι :=
  if source.card = replica.known.card then
    { replica with sourceCursor := none, staleCursor := none }
  else
    let candidates := restartCandidates replica.staleCursor replica.known.sort
    let kept := replica.known.filter fun entry =>
      entry ∈ candidates.take batch → entry ∈ stored
    let page := (behind replica.sourceCursor source.sort).take batch
    { known := kept ∪ page.toFinset
      sourceCursor := page.getLast?
      staleCursor := if replica.known = ∅ then replica.staleCursor
        else restartCursor batch candidates }

theorem sort_pairwise_lt (items : Finset ι) : items.sort.Pairwise (· < ·) :=
  (Finset.sortedLT_sort items).pairwise

namespace Replica

variable (source stored : Finset ι)

variable {batch : ℕ} {replica : Replica ι}

/-- Ids of the replica that the source's store does not know. -/
def stale (replica : Replica ι) : Finset ι := replica.known \ stored

/-- Ids of the source that the replica lacks. -/
def missing (replica : Replica ι) : Finset ι := source \ replica.known

/-- Nothing is left to drop or to copy. -/
def Settled (replica : Replica ι) : Prop :=
  replica.stale stored = ∅ ∧ replica.missing source = ∅

/-- The replica will not change any more. -/
def Fixed (replica : Replica ι) : Prop :=
  source.card = replica.known.card ∨ replica.Settled source stored

/-- Work left, then the distance of the sweep that still has work. -/
def effort (replica : Replica ι) : ℕ ×ₗ ℕ :=
  toLex ((replica.stale stored).card + (replica.missing source).card,
    if (replica.stale stored).Nonempty then
      distance (· ∉ stored) replica.staleCursor replica.known.sort
    else distance (· ∉ replica.known) replica.sourceCursor source.sort)

variable {source stored}

theorem mem_step_known (hcount : source.card ≠ replica.known.card) {entry : ι} :
    entry ∈ (replica.step source stored batch).known ↔
      (entry ∈ replica.known ∧
        (entry ∈ (restartCandidates replica.staleCursor replica.known.sort).take batch →
          entry ∈ stored)) ∨
      entry ∈ (behind replica.sourceCursor source.sort).take batch := by
  simp [step, hcount]

theorem mem_source_of_page {after : Option ι} {entry : ι}
    (hpage : entry ∈ (behind after source.sort).take batch) : entry ∈ source := by
  have hmem := (mem_behind.mp (List.mem_of_mem_take hpage)).1
  simpa using hmem

theorem Settled.known_eq (hsettled : replica.Settled source stored) :
    replica.known = source ∪ (replica.known ∩ (stored \ source)) := by
  obtain ⟨hstale, hmissing⟩ := hsettled
  rw [stale, Finset.sdiff_eq_empty_iff_subset] at hstale
  rw [missing, Finset.sdiff_eq_empty_iff_subset] at hmissing
  ext entry
  simp only [Finset.mem_union, Finset.mem_inter, Finset.mem_sdiff]
  constructor
  · intro hentry
    by_cases hsource : entry ∈ source
    · exact Or.inl hsource
    · exact Or.inr ⟨hentry, hstale hentry, hsource⟩
  · rintro (hsource | ⟨hentry, -⟩)
    · exact hmissing hsource
    · exact hentry

theorem Fixed.step (batch : ℕ) (hfixed : replica.Fixed source stored) :
    (replica.step source stored batch).known = replica.known ∧
      (replica.step source stored batch).Fixed source stored := by
  by_cases hcount : source.card = replica.known.card
  · have hknown : (replica.step source stored batch).known = replica.known := by
      simp [Replica.step, hcount]
    exact ⟨hknown, Or.inl (by rw [hknown]; exact hcount)⟩
  · have hsettled := hfixed.resolve_left hcount
    have hstored : replica.known ⊆ stored := Finset.sdiff_eq_empty_iff_subset.mp hsettled.1
    have hsource : source ⊆ replica.known := Finset.sdiff_eq_empty_iff_subset.mp hsettled.2
    have hknown : (replica.step source stored batch).known = replica.known := by
      ext entry
      rw [mem_step_known hcount]
      constructor
      · rintro (⟨hentry, -⟩ | hpage)
        · exact hentry
        · exact hsource (mem_source_of_page hpage)
      · intro hentry
        exact Or.inl ⟨hentry, fun _ => hstored hentry⟩
    refine ⟨hknown, Or.inr ?_⟩
    rw [Settled, stale, missing, hknown]
    exact hsettled

theorem step_other_stored (replica : Replica ι) :
    (replica.step source stored batch).known ∩ (stored \ source) =
      replica.known ∩ (stored \ source) := by
  by_cases hcount : source.card = replica.known.card
  · simp [step, hcount]
  · ext entry
    simp only [Finset.mem_inter, Finset.mem_sdiff, mem_step_known hcount]
    constructor
    · rintro ⟨⟨hknown, -⟩ | hpage, hother⟩
      · exact ⟨hknown, hother⟩
      · exact absurd (mem_source_of_page hpage) hother.2
    · rintro ⟨hknown, hother⟩
      exact ⟨Or.inl ⟨hknown, fun _ => hother.1⟩, hother⟩

section Progress

variable (hsource : source ⊆ stored)

variable {replica : Replica ι} {batch : ℕ}

include hsource

theorem step_stale_subset (batch : ℕ) (hcount : source.card ≠ replica.known.card) :
    (replica.step source stored batch).stale stored ⊆ replica.stale stored := by
  intro entry hentry
  rw [stale, Finset.mem_sdiff, mem_step_known hcount] at hentry
  obtain ⟨⟨hknown, -⟩ | hpage, hunstored⟩ := hentry
  · exact Finset.mem_sdiff.mpr ⟨hknown, hunstored⟩
  · exact absurd (hsource (mem_source_of_page hpage)) hunstored

theorem step_missing_subset (batch : ℕ) (hcount : source.card ≠ replica.known.card) :
    (replica.step source stored batch).missing source ⊆ replica.missing source := by
  intro entry hentry
  rw [missing, Finset.mem_sdiff, mem_step_known hcount] at hentry
  refine Finset.mem_sdiff.mpr ⟨hentry.1, fun hknown => hentry.2 (Or.inl ⟨hknown, fun _ => ?_⟩)⟩
  exact hsource hentry.1

/-- When a step drops and copies nothing, its pages held nothing to drop or to
copy, so the ids are unchanged. -/
theorem step_idle (hcount : source.card ≠ replica.known.card)
    (hstale : (replica.step source stored batch).stale stored = replica.stale stored)
    (hmissing : (replica.step source stored batch).missing source = replica.missing source) :
    (∀ entry ∈ (restartCandidates replica.staleCursor replica.known.sort).take batch,
        entry ∈ stored) ∧
      (∀ entry ∈ (behind replica.sourceCursor source.sort).take batch, entry ∈ replica.known) ∧
      (replica.step source stored batch).known = replica.known := by
  have hkeep : ∀ entry ∈ (restartCandidates replica.staleCursor replica.known.sort).take batch,
      entry ∈ stored := by
    intro entry hpage
    by_contra hunstored
    have hknown : entry ∈ replica.known := by
      have hcandidate := List.mem_of_mem_take hpage
      rw [restartCandidates] at hcandidate
      split at hcandidate
      · simpa using hcandidate
      · simpa using (mem_behind.mp hcandidate).1
    have hin : entry ∈ (replica.step source stored batch).stale stored := by
      rw [hstale]
      exact Finset.mem_sdiff.mpr ⟨hknown, hunstored⟩
    rw [stale, Finset.mem_sdiff, mem_step_known hcount] at hin
    rcases hin.1 with ⟨-, hstored⟩ | hcopied
    · exact hunstored (hstored hpage)
    · exact hunstored (hsource (mem_source_of_page hcopied))
  have hcopy : ∀ entry ∈ (behind replica.sourceCursor source.sort).take batch,
      entry ∈ replica.known := by
    intro entry hpage
    by_contra hunknown
    have hin : entry ∈ (replica.step source stored batch).missing source := by
      rw [hmissing]
      exact Finset.mem_sdiff.mpr ⟨mem_source_of_page hpage, hunknown⟩
    rw [missing, Finset.mem_sdiff, mem_step_known hcount] at hin
    exact hin.2 (Or.inr hpage)
  refine ⟨hkeep, hcopy, ?_⟩
  ext entry
  rw [mem_step_known hcount]
  constructor
  · rintro (⟨hknown, -⟩ | hpage)
    · exact hknown
    · exact hcopy entry hpage
  · intro hknown
    exact Or.inl ⟨hknown, hkeep entry⟩

theorem effort_step_lt (hbatch : 0 < batch) (hopen : ¬ replica.Fixed source stored) :
    (replica.step source stored batch).effort source stored < replica.effort source stored := by
  rw [Fixed, not_or] at hopen
  obtain ⟨hcount, hunsettled⟩ := hopen
  have hstale := step_stale_subset hsource batch hcount
  have hmissing := step_missing_subset hsource batch hcount
  rw [effort, effort, Prod.Lex.toLex_lt_toLex]
  by_cases hsame : (replica.step source stored batch).stale stored = replica.stale stored ∧
      (replica.step source stored batch).missing source = replica.missing source
  · obtain ⟨hkeep, hcopy, hknown⟩ := step_idle hsource hcount hsame.1 hsame.2
    refine Or.inr ⟨by rw [hsame.1, hsame.2], ?_⟩
    rw [hsame.1, hknown]
    by_cases hwork : (replica.stale stored).Nonempty
    · rw [if_pos hwork, if_pos hwork]
      obtain ⟨entry, hentry⟩ := hwork
      obtain ⟨hentryKnown, hunstored⟩ := Finset.mem_sdiff.mp hentry
      have hcursor : (replica.step source stored batch).staleCursor =
          restartCursor batch (restartCandidates replica.staleCursor replica.known.sort) := by
        have hnonempty : replica.known ≠ ∅ := Finset.ne_empty_of_mem hentryKnown
        simp [step, hcount, hnonempty]
      rw [hcursor]
      refine distance_restart hbatch (sort_pairwise_lt _) ⟨entry, by simpa, hunstored⟩ ?_
      intro other hother hotherUnstored
      exact hotherUnstored (hkeep other hother)
    · rw [if_neg hwork, if_neg hwork]
      have hlacking : (replica.missing source).Nonempty := by
        rw [Finset.nonempty_iff_ne_empty]
        exact fun hempty => hunsettled ⟨Finset.not_nonempty_iff_eq_empty.mp hwork, hempty⟩
      obtain ⟨entry, hentry⟩ := hlacking
      obtain ⟨hentrySource, hunknown⟩ := Finset.mem_sdiff.mp hentry
      have hcursor : (replica.step source stored batch).sourceCursor =
          ((behind replica.sourceCursor source.sort).take batch).getLast? := by
        simp [step, hcount]
      rw [hcursor]
      refine distance_resetOnEmpty hbatch (sort_pairwise_lt _) ⟨entry, by simpa, hunknown⟩ ?_
      intro other hother hotherUnknown
      exact hotherUnknown (hcopy other hother)
  · refine Or.inl ?_
    rw [not_and_or] at hsame
    have hstaleCard := Finset.card_le_card hstale
    have hmissingCard := Finset.card_le_card hmissing
    rcases hsame with hne | hne
    · have hstrict := Finset.card_lt_card (hstale.ssubset_of_ne hne)
      simp only
      omega
    · have hstrict := Finset.card_lt_card (hmissing.ssubset_of_ne hne)
      simp only
      omega

theorem exists_fixed (hbatch : 0 < batch) (replica : Replica ι) :
    ∃ steps, ((step source stored batch)^[steps] replica).Fixed source stored := by
  induction heffort : replica.effort source stored using WellFoundedLT.induction
    generalizing replica with
  | ind effort ih =>
    by_cases hfixed : replica.Fixed source stored
    · exact ⟨0, hfixed⟩
    · have hless := effort_step_lt hsource hbatch hfixed
      rw [heffort] at hless
      obtain ⟨steps, hsteps⟩ := ih _ hless (replica.step source stored batch) rfl
      exact ⟨steps + 1, by rwa [Function.iterate_succ_apply]⟩

end Progress

/-! ## Whole runs -/

theorem iterate_other_stored (batch steps : ℕ) (replica : Replica ι) :
    ((step source stored batch)^[steps] replica).known ∩ (stored \ source) =
      replica.known ∩ (stored \ source) := by
  induction steps generalizing replica with
  | zero => rfl
  | succ steps ih =>
    rw [Function.iterate_succ_apply, ih, step_other_stored]

theorem iterate_one_sided (hsource : source ⊆ stored) (batch : ℕ) {replica : Replica ι}
    (hsided : replica.known ⊆ source ∨ source ⊆ replica.known) (steps : ℕ) :
    ((step source stored batch)^[steps] replica).known ⊆ source ∨
      source ⊆ ((step source stored batch)^[steps] replica).known := by
  induction steps generalizing replica with
  | zero => exact hsided
  | succ steps ih =>
    rw [Function.iterate_succ_apply]
    refine ih ?_
    by_cases hcount : source.card = replica.known.card
    · have hfixed : replica.Fixed source stored := Or.inl hcount
      have hknown := (hfixed.step batch).1
      rw [hknown]
      exact hsided
    · rcases hsided with hsub | hsup
      · refine Or.inl fun entry hentry => ?_
        rcases (mem_step_known hcount).mp hentry with ⟨hknown, -⟩ | hpage
        · exact hsub hknown
        · exact mem_source_of_page hpage
      · exact Or.inr fun entry hentry =>
          (mem_step_known hcount).mpr (Or.inl ⟨hsup hentry, fun _ => hsource hentry⟩)

/-- From every start the replica becomes fixed: it holds the source and the
foreign stored ids it started with, or the counts agree on a wrong set. -/
theorem exists_limit (hsource : source ⊆ stored) {batch : ℕ} (hbatch : 0 < batch)
    (replica : Replica ι) :
    ∃ steps,
      ((step source stored batch)^[steps] replica).Fixed source stored ∧
      (((step source stored batch)^[steps] replica).known =
          source ∪ (replica.known ∩ (stored \ source)) ∨
        ((step source stored batch)^[steps] replica).known.card = source.card) := by
  obtain ⟨steps, hfixed⟩ := exists_fixed hsource hbatch replica
  refine ⟨steps, hfixed, ?_⟩
  rcases hfixed with hcount | hsettled
  · exact Or.inr hcount.symm
  · refine Or.inl ?_
    rw [hsettled.known_eq, iterate_other_stored]

/-- A one-sided start without foreign stored ids can only end at the source. -/
theorem known_eq_source_of_one_sided (hsource : source ⊆ stored) {batch steps : ℕ}
    {replica : Replica ι} (hsided : replica.known ⊆ source ∨ source ⊆ replica.known)
    (hforeign : replica.known ∩ (stored \ source) = ∅)
    (hlimit : ((step source stored batch)^[steps] replica).known =
        source ∪ (replica.known ∩ (stored \ source)) ∨
      ((step source stored batch)^[steps] replica).known.card = source.card) :
    ((step source stored batch)^[steps] replica).known = source := by
  rcases hlimit with hknown | hcount
  · rw [hknown, hforeign, Finset.union_empty]
  · rcases iterate_one_sided hsource batch hsided steps with hsub | hsup
    · exact Finset.eq_of_subset_of_card_le hsub hcount.ge
    · exact (Finset.eq_of_subset_of_card_le hsup hcount.le).symm

end Replica

end Pallium.Reconciliation
