import Pallium.Memory.Supersession

/-!
# The merge history of a decision

A winner takes over the history of the loser and the loser's own value, without
repetition, and keeps the last sixteen entries.  A value that stands in the history
already does not move to its end, so that the loser's own value may be among the
entries that fall off.
-/

namespace Pallium.Memory

open MemoryStore

variable {text : String}

/-- The values of a list that are neither empty nor known, each at its first place. -/
def freshTexts (known : List String) : List String → List String
  | [] => []
  | text :: rest =>
    if text = "" ∨ text ∈ known then freshTexts known rest
    else text :: freshTexts (known ++ [text]) rest

/-- The history of the winner followed by what is new in the history of the loser. -/
def gatheredHistory (winner loser : List String) : List String :=
  winner ++ freshTexts winner loser

/-- Fewer than sixteen entries of the gathered history stand behind a value in it. -/
def WithinWindow (winner loser : List String) (text : String) : Prop :=
  text ∈ gatheredHistory winner loser →
    (gatheredHistory winner loser).reverse.idxOf text < 16

/-- The evidence text of a decision or an investigation outcome. -/
def Payload.evidenceText (payload : Payload) : Option String :=
  (payload.decisionEvidenceText.filter (· ≠ "")).or payload.investigationEvidenceText

/-- The bounds of a merged list: its length, its values and their multiplicity. -/
structure MergedHistory (winner loser : List String) (own : Option String)
    (merged : List String) : Prop where
  bounded : merged.length ≤ 16
  nodup : winner.Nodup → loser.Nodup → merged.Nodup
  origin : ∀ text ∈ merged, text ∈ winner ∨ text ∈ loser ∨ own = some text

/-- A merge keeps the bounds of all three lists and the loser's own values. -/
structure KeepsProvenance (winner loser : Payload) (loserId : String) (merged : Payload) :
    Prop where
  ids : MergedHistory winner.mergedFrom loser.mergedFrom (some loserId) merged.mergedFrom
  evidence : MergedHistory winner.previousEvidenceText loser.previousEvidenceText
    loser.evidenceText merged.previousEvidenceText
  rationales : MergedHistory winner.previousRationale loser.previousRationale
    loser.rationale merged.previousRationale
  ownId : loserId ∈ merged.mergedFrom
  ownEvidence : ∀ text, loser.evidenceText = some text → text ≠ "" →
    text ∈ merged.previousEvidenceText
  ownRationale : ∀ text, loser.rationale = some text → text ≠ "" →
    text ∈ merged.previousRationale

variable (winner loser : List String)

theorem foldl_appendUnique :
    (loser.map some).foldl appendUnique winner = gatheredHistory winner loser := by
  induction loser generalizing winner with
  | nil => simp [gatheredHistory, freshTexts]
  | cons text rest ih =>
    rw [List.map_cons, List.foldl_cons, ih]
    by_cases hknown : text = "" ∨ text ∈ winner
    · simp [gatheredHistory, freshTexts, appendUnique, hknown]
    · simp [gatheredHistory, freshTexts, appendUnique, hknown]

theorem mem_of_mem_freshTexts {known texts : List String} (hfresh : text ∈ freshTexts known texts) :
    text ∈ texts := by
  induction texts generalizing known with
  | nil => simp [freshTexts] at hfresh
  | cons first rest ih =>
    rw [freshTexts] at hfresh
    split at hfresh
    · exact List.mem_cons_of_mem _ (ih hfresh)
    · rcases List.mem_cons.1 hfresh with rfl | hrest
      · exact List.mem_cons_self
      · exact List.mem_cons_of_mem _ (ih hrest)

theorem nodup_gatheredHistory {winner : List String} (hwinner : winner.Nodup) :
    (gatheredHistory winner loser).Nodup := by
  induction loser generalizing winner with
  | nil => simpa [gatheredHistory, freshTexts] using hwinner
  | cons text rest ih =>
    by_cases hknown : text = "" ∨ text ∈ winner
    · simpa [gatheredHistory, freshTexts, hknown] using ih hwinner
    · have happended : (winner ++ [text]).Nodup :=
        List.nodup_append.2 ⟨hwinner, List.nodup_singleton text, by grind⟩
      simpa [gatheredHistory, freshTexts, hknown] using ih happended

theorem mem_keepLast {texts : List String} :
    text ∈ keepLast texts ↔ text ∈ texts ∧ texts.reverse.idxOf text < 16 := by
  have hreverse : (texts.reverse.take 16).reverse = keepLast texts := by
    rw [List.take_reverse, List.reverse_reverse, keepLast]
  rw [← hreverse, List.mem_reverse]
  constructor
  · intro htaken
    have hmem := List.mem_of_mem_take htaken
    exact ⟨List.mem_reverse.1 hmem, (List.mem_take_iff_idxOf_lt hmem).1 htaken⟩
  · rintro ⟨hmem, hnear⟩
    exact (List.mem_take_iff_idxOf_lt (List.mem_reverse.2 hmem)).2 hnear

theorem mergedHistory (own : Option String) :
    MergedHistory winner loser own
      (keepLast (appendUnique (gatheredHistory winner loser) own)) where
  bounded := by
    rw [keepLast, List.length_drop]
    omega
  nodup := by
    intro hwinner _
    have hgathered := nodup_gatheredHistory loser hwinner
    refine List.Nodup.sublist (List.drop_sublist _ _) ?_
    rcases own with _ | text
    · exact hgathered
    · rw [appendUnique]
      split
      · exact hgathered
      · exact List.nodup_append.2 ⟨hgathered, List.nodup_singleton text, by grind⟩
  origin := by
    intro text hkept
    have hmem : text ∈ appendUnique (gatheredHistory winner loser) own :=
      List.mem_of_mem_drop hkept
    have horigin : text ∈ gatheredHistory winner loser ∨ own = some text := by
      rcases own with _ | value
      · exact Or.inl hmem
      · rw [appendUnique] at hmem
        split at hmem
        · exact Or.inl hmem
        · rcases List.mem_append.1 hmem with hgathered | hown
          · exact Or.inl hgathered
          · exact Or.inr (by rw [List.mem_singleton.1 hown])
    rcases horigin with hgathered | hown
    · rcases List.mem_append.1 hgathered with hwinner | hfresh
      · exact Or.inl hwinner
      · exact Or.inr (Or.inl (mem_of_mem_freshTexts hfresh))
    · exact Or.inr (Or.inr hown)

theorem own_kept_iff (hvalue : text ≠ "") :
    text ∈ keepLast (appendUnique (gatheredHistory winner loser) (some text)) ↔
      WithinWindow winner loser text := by
  by_cases hmem : text ∈ gatheredHistory winner loser
  · simp [appendUnique, hvalue, hmem, mem_keepLast, WithinWindow]
  · simp [appendUnique, hvalue, hmem, mem_keepLast, WithinWindow]

theorem id_kept_iff (text : String) :
    text ∈ keepLast (appendUnique (gatheredHistory winner loser) (some text)) ↔
      (text = "" → text ∈ gatheredHistory winner loser) ∧ WithinWindow winner loser text := by
  by_cases hvalue : text = ""
  · by_cases hmem : text ∈ gatheredHistory winner loser
    · subst hvalue
      simp [appendUnique, hmem, mem_keepLast, WithinWindow]
    · subst hvalue
      simp [appendUnique, hmem, mem_keepLast]
  · rw [own_kept_iff winner loser hvalue]
    simp [hvalue]

theorem mergeDecisionPayload_eq (winner loser : Payload) (loserId : String) :
    mergeDecisionPayload winner loser loserId =
      { winner with
        mergedFrom := keepLast (appendUnique
          (gatheredHistory winner.mergedFrom loser.mergedFrom) (some loserId))
        previousEvidenceText := keepLast (appendUnique
          (gatheredHistory winner.previousEvidenceText loser.previousEvidenceText)
          loser.evidenceText)
        previousRationale := keepLast (appendUnique
          (gatheredHistory winner.previousRationale loser.previousRationale)
          loser.rationale) } := by
  simp only [mergeDecisionPayload, foldl_appendUnique, Payload.evidenceText]

/-- A merge keeps the loser's provenance exactly when none of the loser's own values
stands too far at the front of the gathered history. -/
theorem mergeDecisionPayload_keeps_iff (winner loser : Payload) (loserId : String) :
    KeepsProvenance winner loser loserId (mergeDecisionPayload winner loser loserId) ↔
      ((loserId = "" → loserId ∈ gatheredHistory winner.mergedFrom loser.mergedFrom) ∧
        WithinWindow winner.mergedFrom loser.mergedFrom loserId) ∧
      (∀ text, loser.evidenceText = some text → text ≠ "" →
        WithinWindow winner.previousEvidenceText loser.previousEvidenceText text) ∧
      ∀ text, loser.rationale = some text → text ≠ "" →
        WithinWindow winner.previousRationale loser.previousRationale text := by
  rw [mergeDecisionPayload_eq]
  constructor
  · intro hkeeps
    refine ⟨(id_kept_iff _ _ _).1 hkeeps.ownId, ?_, ?_⟩
    · intro text hown hvalue
      have hkept := hkeeps.ownEvidence text hown hvalue
      rw [hown] at hkept
      exact (own_kept_iff _ _ hvalue).1 hkept
    · intro text hown hvalue
      have hkept := hkeeps.ownRationale text hown hvalue
      rw [hown] at hkept
      exact (own_kept_iff _ _ hvalue).1 hkept
  · rintro ⟨hid, hevidence, hrationale⟩
    refine ⟨mergedHistory _ _ _, mergedHistory _ _ _, mergedHistory _ _ _,
      (id_kept_iff _ _ _).2 hid, ?_, ?_⟩
    · intro text hown hvalue
      simp only [hown]
      exact (own_kept_iff _ _ hvalue).2 (hevidence text hown hvalue)
    · intro text hown hvalue
      simp only [hown]
      exact (own_kept_iff _ _ hvalue).2 (hrationale text hown hvalue)

def quotes : List String := (List.range 16).map fun index => s!"quote {index}"

/-- The loser repeats the first quote of a full history and brings one more quote. -/
theorem own_evidence_falls_off :
    ¬ KeepsProvenance { Payload.empty with previousEvidenceText := quotes }
      { Payload.empty with
        previousEvidenceText := ["quote 16"]
        decisionEvidenceText := some "quote 0" } "memory-1"
      (mergeDecisionPayload { Payload.empty with previousEvidenceText := quotes }
        { Payload.empty with
          previousEvidenceText := ["quote 16"]
          decisionEvidenceText := some "quote 0" } "memory-1") := by
  intro hkeeps
  have hkept := hkeeps.ownEvidence "quote 0" (by decide +kernel) (by decide)
  exact absurd hkept (by decide +kernel)

end Pallium.Memory
