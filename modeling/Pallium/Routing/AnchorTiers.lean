import Mathlib

/-!
# Anchor tiers and the routing focus

A candidate that does not match the anchor of the query is ranked lower by a penalty of the
size of the focus boost.  The focus also demotes the preferred layer when it falls back to
another one, which the penalty does not make up for.
-/

namespace Pallium.Routing

inductive Intent
  | recall
  | structuredRecall
  | workResumption
  | evidenceTrace
  deriving DecidableEq, Repr

/-- `_result_layer` of a candidate. -/
inductive Layer
  | patternMemory
  | continuityMemory
  | taskCheckpoint
  | lowerLevelMemory
  | sourceEvidence
  | decision
  | investigationOutcome
  | threadSummary
  | turnSummary
  | note
  | atomicFact
  | operationalFact
  | constraintMemory
  deriving DecidableEq, Repr

/-- How a memory relates to the anchor of the query. -/
inductive AnchorState
  | aligned
  | conflicting
  | insufficient
  | legacy
  deriving DecidableEq, Repr

inductive AnchorStatus
  | aligned
  | secondaryTier
  | insufficientRetained
  | legacyFallbackRetained
  deriving DecidableEq, Repr

inductive SupportGrade
  | weak
  | supported
  | strong
  deriving DecidableEq, Repr

/-- A scored candidate.  The anchor state is that of a memory; the component adjustment
sums the freshness, usefulness and fresh-session components. -/
structure ScoredCandidate where
  resultId : String
  anchorState : Option AnchorState
  layer : Layer
  supportScore : ℤ
  retrievalScore : ℚ
  scoredRoutingScore : ℤ
  suppressionPenalty : ℤ
  componentAdjustment : ℤ
  deriving DecidableEq

/-- `ROUTING_PREFERRED_LAYERS[intent][0]`. -/
def primaryLayer : Intent → Layer
  | .recall => .patternMemory
  | .structuredRecall => .investigationOutcome
  | .workResumption => .taskCheckpoint
  | .evidenceTrace => .sourceEvidence

/-- `ROUTING_SAFE_FALLBACK_LAYERS`. -/
def safeFallbackLayers : Intent → List Layer
  | .recall => [.atomicFact, .note, .operationalFact, .taskCheckpoint, .threadSummary,
      .lowerLevelMemory, .sourceEvidence]
  | .structuredRecall => [.atomicFact, .note, .operationalFact, .decision, .sourceEvidence,
      .threadSummary]
  | .workResumption => [.sourceEvidence, .lowerLevelMemory]
  | .evidenceTrace => [.atomicFact, .lowerLevelMemory]

/-- `ROUTING_HIGHER_LEVEL_TYPES`. -/
def higherLevelTypes : List Layer :=
  [.patternMemory, .continuityMemory, .taskCheckpoint, .threadSummary, .turnSummary,
    .constraintMemory]

def routingFallbackMargin : ℤ := 25

def routingFocusBoost : ℤ := 80

def anchorSecondaryTierPenalty : ℤ := 80

def routingDemotedHigherLevelPenalty : ℤ := 60

/-- `_routing_support_grade` with the default thresholds. -/
def routingSupportGrade (supportScore : ℤ) : SupportGrade :=
  if 110 ≤ supportScore then .strong else if 60 ≤ supportScore then .supported else .weak

section Prefilter

variable (retrieved : List ScoredCandidate)

/-- `_anchor_prefilter_candidates` for a query with an anchor: the status of a candidate
among the retrieved ones. -/
def anchorPrefilterStatus (candidate : ScoredCandidate) : Option AnchorStatus :=
  candidate.anchorState.map fun state =>
    if retrieved.any fun other => other.anchorState = some .aligned then
      if state = .aligned then .aligned else .secondaryTier
    else if state = .conflicting ∨ state = .insufficient then .insufficientRetained
    else .legacyFallbackRetained

/-- `_ANCHOR_SECONDARY_STATUSES`. -/
def AnchorStatus.secondary (status : AnchorStatus) : Bool := status ≠ .aligned

def anchorTierPenalty (candidate : ScoredCandidate) : ℤ :=
  if (anchorPrefilterStatus retrieved candidate).any AnchorStatus.secondary then
    anchorSecondaryTierPenalty
  else 0

/-- The base score after the penalty of the tier, the suppression and the components. -/
def baseRoutingScore (candidate : ScoredCandidate) : ℤ :=
  candidate.scoredRoutingScore - anchorTierPenalty retrieved candidate -
    candidate.suppressionPenalty + candidate.componentAdjustment

end Prefilter

/-- What `_summarize_routing_layers` says of a layer, or its defaults. -/
structure LayerSummary where
  candidateCount : ℕ
  bestSupportScore : ℤ
  bestSupportGrade : SupportGrade
  bestRetrievalScore : ℚ
  deriving DecidableEq

/-- Whether a candidate counts for a summarised layer. -/
def countsFor (layer : Layer) (candidate : ScoredCandidate) : Bool :=
  match layer with
  | .note | .atomicFact | .operationalFact | .constraintMemory => false
  | .lowerLevelMemory => candidate.layer = .lowerLevelMemory || candidate.layer = .decision ||
      candidate.layer = .investigationOutcome
  | layer => candidate.layer = layer

/-- Supports are compared before retrieval scores, by the computable orders of both. -/
instance supportOrder : LinearOrder (ℤ ×ₗ ℚ) :=
  @Prod.Lex.instLinearOrder ℤ ℚ Int.instLinearOrder Rat.linearOrder

instance supportPreorder : Preorder (ℤ ×ₗ ℚ) := supportOrder.toPreorder

instance supportDecidableLT : DecidableLT (ℤ ×ₗ ℚ) := supportOrder.toDecidableLT

/-- The best candidate is the first with the highest support and retrieval scores. -/
def summarizeRoutingLayer (scored : List ScoredCandidate) (layer : Layer) : LayerSummary :=
  let layerCandidates := scored.filter (countsFor layer)
  match layerCandidates.argmax fun candidate =>
      toLex (candidate.supportScore, candidate.retrievalScore) with
  | none => ⟨0, 0, .weak, 0⟩
  | some best => ⟨layerCandidates.length, best.supportScore, routingSupportGrade best.supportScore,
      best.retrievalScore⟩

section Focus

variable (intent : Intent) (scored : List ScoredCandidate)

/-- The best of the layers by support and retrieval score. -/
def sharpest (layers : List Layer) : Option Layer :=
  layers.argmax fun layer =>
    let summary := summarizeRoutingLayer scored layer
    toLex (summary.bestSupportScore, summary.bestRetrievalScore)

/-- The safe layer to which the focus may fall back. -/
def bestFallbackLayer : Option Layer :=
  let fallback := (safeFallbackLayers intent).filter fun layer =>
    0 < (summarizeRoutingLayer scored layer).candidateCount
  let supported := fun layer => (summarizeRoutingLayer scored layer).bestSupportGrade ≠ .weak
  if intent = .recall then
    let structured := fallback.filter fun layer =>
      (layer = .taskCheckpoint || layer = .threadSummary || layer = .turnSummary ||
        layer = .lowerLevelMemory) && supported layer
    if structured ≠ [] then sharpest scored structured
    else
      match fallback.find? fun layer => layer = .lowerLevelMemory && supported layer with
      | some layer => some layer
      | none => sharpest scored fallback
  else sharpest scored fallback

inductive FocusReason
  | preferredLayerSupported
  | preferredLayerMissing
  | weakHigherLevelSupport
  | supportedCheckpointPreserved
  | saferLayerStronger
  | primarySupportWeak
  deriving DecidableEq, Repr

structure RoutingFocus where
  applied : Bool
  selectedLayer : Layer
  reasonCode : FocusReason
  deriving DecidableEq, Repr

/-- `_select_routing_focus` with the default margin. -/
def selectRoutingFocus : RoutingFocus :=
  let primary := primaryLayer intent
  let summary := summarizeRoutingLayer scored primary
  let preferred : RoutingFocus := ⟨false, primary, .preferredLayerSupported⟩
  match bestFallbackLayer intent scored with
  | none => preferred
  | some layer =>
    let fallback := summarizeRoutingLayer scored layer
    if summary.candidateCount = 0 then ⟨true, layer, .preferredLayerMissing⟩
    else if primary ∈ higherLevelTypes then
      if (intent = .recall ∨ intent = .workResumption) ∧ summary.bestSupportGrade = .weak ∧
          fallback.bestSupportGrade = .strong ∧
          summary.bestSupportScore + routingFallbackMargin ≤ fallback.bestSupportScore then
        ⟨true, layer, .weakHigherLevelSupport⟩
      else if intent ≠ .recall ∧ intent ≠ .workResumption ∧ summary.bestSupportGrade = .weak ∧
          fallback.bestSupportGrade ≠ .weak then
        ⟨true, layer, .weakHigherLevelSupport⟩
      else if intent = .workResumption ∧ primary = .taskCheckpoint ∧ layer = .sourceEvidence ∧
          summary.bestSupportGrade ≠ .weak then
        ⟨false, primary, .supportedCheckpointPreserved⟩
      else if summary.bestSupportScore + routingFallbackMargin ≤ fallback.bestSupportScore then
        ⟨true, layer, .saferLayerStronger⟩
      else preferred
    else if (primary = .sourceEvidence ∨ primary = .lowerLevelMemory) ∧ intent ≠ .evidenceTrace ∧
        summary.bestSupportGrade = .weak ∧ fallback.bestSupportGrade ≠ .weak then
      ⟨true, layer, .primarySupportWeak⟩
    else preferred

/-- `_routing_focus_adjustment` with the default boost. -/
def routingFocusAdjustment (focus : RoutingFocus) (layer : Layer) : ℤ :=
  (if layer = focus.selectedLayer then routingFocusBoost else 0) -
    if focus.applied ∧ primaryLayer intent ∈ higherLevelTypes ∧ layer = primaryLayer intent ∧
        layer ≠ focus.selectedLayer then
      routingDemotedHigherLevelPenalty
    else 0

/-- The score apart from the penalty of the tier and the adjustment of the focus. -/
def ScoredCandidate.scoreApart (candidate : ScoredCandidate) : ℤ :=
  candidate.scoredRoutingScore - candidate.suppressionPenalty + candidate.componentAdjustment

/-- The final routing score. -/
def routingScore (retrieved : List ScoredCandidate) (candidate : ScoredCandidate) : ℤ :=
  baseRoutingScore retrieved candidate +
    routingFocusAdjustment intent (selectRoutingFocus intent scored) candidate.layer

/-- The preferred layer of the intent is a higher-level one that the aligned candidate is
in, and a safe layer that the other is in is better supported by the margin.  A supported
task checkpoint does not give way to source evidence. -/
def Overtaken (aligned secondary : ScoredCandidate) : Prop :=
  primaryLayer intent ∈ higherLevelTypes ∧ aligned.layer = primaryLayer intent ∧
    bestFallbackLayer intent scored = some secondary.layer ∧
    (summarizeRoutingLayer scored aligned.layer).bestSupportScore + routingFallbackMargin ≤
      (summarizeRoutingLayer scored secondary.layer).bestSupportScore ∧
    ¬ (aligned.layer = .taskCheckpoint ∧ secondary.layer = .sourceEvidence ∧
      (summarizeRoutingLayer scored aligned.layer).bestSupportGrade ≠ .weak)

end Focus

section Lemmas

variable {intent : Intent} {retrieved scored : List ScoredCandidate}
  {aligned secondary : ScoredCandidate} {layer : Layer}

theorem sharpest_mem {layers : List Layer} (hsharpest : sharpest scored layers = some layer) :
    layer ∈ layers :=
  List.argmax_mem hsharpest

theorem bestFallbackLayer_mem (hbest : bestFallbackLayer intent scored = some layer) :
    layer ∈ safeFallbackLayers intent := by
  rw [bestFallbackLayer] at hbest
  simp only at hbest
  split at hbest
  · split at hbest
    · exact List.mem_of_mem_filter (List.mem_of_mem_filter (sharpest_mem hbest))
    · split at hbest
      · next found hfound =>
        cases hbest
        exact List.mem_of_mem_filter (List.mem_of_find?_eq_some hfound)
      · exact List.mem_of_mem_filter (sharpest_mem hbest)
  · exact List.mem_of_mem_filter (sharpest_mem hbest)

theorem primaryLayer_not_safe (intent : Intent) :
    primaryLayer intent ∉ safeFallbackLayers intent := by
  cases intent <;> decide

theorem candidateCount_ne_zero {candidate : ScoredCandidate} (hmem : candidate ∈ scored)
    (hcounts : countsFor layer candidate = true) :
    (summarizeRoutingLayer scored layer).candidateCount ≠ 0 := by
  have hfound : candidate ∈ scored.filter (countsFor layer) := List.mem_filter.mpr ⟨hmem, hcounts⟩
  rw [summarizeRoutingLayer]
  split
  · next hnone =>
    rw [List.argmax_eq_none.mp hnone] at hfound
    cases hfound
  · exact (List.length_pos_of_mem hfound).ne'

theorem focus_falls_back_iff (hmem : aligned ∈ scored)
    (hlayer : aligned.layer = primaryLayer intent)
    (hhigher : primaryLayer intent ∈ higherLevelTypes) :
    (selectRoutingFocus intent scored).applied = true ∧
        (selectRoutingFocus intent scored).selectedLayer = secondary.layer ↔
      Overtaken intent scored aligned secondary := by
  have hcount : (summarizeRoutingLayer scored (primaryLayer intent)).candidateCount ≠ 0 := by
    refine candidateCount_ne_zero hmem ?_
    revert hhigher
    rw [countsFor.eq_def, hlayer]
    cases intent <;> decide
  rw [Overtaken, selectRoutingFocus, hlayer]
  cases hbest : bestFallbackLayer intent scored with
  | none => simp
  | some layer =>
    simp only [hcount, hhigher, if_true, if_false, true_and, Option.some.injEq]
    by_cases hsame : layer = secondary.layer
    · subst hsame
      cases intent <;> simp only [primaryLayer, higherLevelTypes] at hhigher ⊢ <;> grind
    · have hother : ∀ other : Layer, other = layer → other ≠ secondary.layer :=
        fun other hlayer hsecondary => hsame (hlayer.symm.trans hsecondary)
      grind

end Lemmas

section Tiers

variable {intent : Intent} {retrieved scored : List ScoredCandidate}
  {candidate : ScoredCandidate} {focus : RoutingFocus} {layer : Layer}

theorem baseRoutingScore_aligned
    (hstatus : anchorPrefilterStatus retrieved candidate = some .aligned) :
    baseRoutingScore retrieved candidate = candidate.scoreApart := by
  have hpenalty : anchorTierPenalty retrieved candidate = 0 := by
    rw [anchorTierPenalty, hstatus]
    rfl
  rw [baseRoutingScore, hpenalty, ScoredCandidate.scoreApart, sub_zero]

theorem baseRoutingScore_secondary
    (hstatus : anchorPrefilterStatus retrieved candidate = some .secondaryTier) :
    baseRoutingScore retrieved candidate =
      candidate.scoreApart - anchorSecondaryTierPenalty := by
  have hpenalty : anchorTierPenalty retrieved candidate = anchorSecondaryTierPenalty := by
    rw [anchorTierPenalty, hstatus]
    rfl
  rw [baseRoutingScore, hpenalty, ScoredCandidate.scoreApart]
  omega

theorem adjustment_selected (hselected : layer = focus.selectedLayer) :
    routingFocusAdjustment intent focus layer = routingFocusBoost := by
  rw [routingFocusAdjustment, if_pos hselected, if_neg fun hdemoted => hdemoted.2.2.2 hselected,
    sub_zero]

theorem adjustment_le (hother : layer ≠ focus.selectedLayer) :
    routingFocusAdjustment intent focus layer ≤ 0 := by
  rw [routingFocusAdjustment, if_neg hother, routingDemotedHigherLevelPenalty]
  split <;> omega

theorem adjustment_ge (intent : Intent) (focus : RoutingFocus) (layer : Layer) :
    0 ≤ routingFocusAdjustment intent focus layer ∨
      routingFocusAdjustment intent focus layer = -routingDemotedHigherLevelPenalty ∧
        focus.applied = true ∧ primaryLayer intent ∈ higherLevelTypes ∧
          layer = primaryLayer intent := by
  rw [routingFocusAdjustment]
  split_ifs with hselected hdemoted hdemoted
  · exact absurd hselected hdemoted.2.2.2
  · exact Or.inl (by decide)
  · exact Or.inr ⟨zero_sub _, hdemoted.1, hdemoted.2.1, hdemoted.2.2.1⟩
  · exact Or.inl (by decide)

end Tiers

/-- Of an aligned candidate and one of the secondary tier with equal scores apart from their
penalty and adjustment, the aligned one is not ranked lower exactly if it is not overtaken. -/
theorem aligned_outranks_iff (intent : Intent) (retrieved scored : List ScoredCandidate)
    (aligned secondary : ScoredCandidate) (hmem : aligned ∈ scored)
    (haligned : anchorPrefilterStatus retrieved aligned = some .aligned)
    (hsecondary : anchorPrefilterStatus retrieved secondary = some .secondaryTier)
    (hequal : aligned.scoreApart = secondary.scoreApart) :
    routingScore intent scored retrieved secondary ≤ routingScore intent scored retrieved aligned ↔
      ¬ Overtaken intent scored aligned secondary := by
  rw [routingScore, routingScore, baseRoutingScore_aligned haligned,
    baseRoutingScore_secondary hsecondary, hequal, anchorSecondaryTierPenalty]
  constructor
  · intro hle hover
    obtain ⟨happlied, hselected⟩ := (focus_falls_back_iff hmem hover.2.1 hover.1).mpr hover
    have hdemoted : routingFocusAdjustment intent (selectRoutingFocus intent scored)
        aligned.layer = -routingDemotedHigherLevelPenalty := by
      have hne : aligned.layer ≠ (selectRoutingFocus intent scored).selectedLayer := by
        rw [hselected, hover.2.1]
        rintro hsame
        exact primaryLayer_not_safe intent (hsame ▸ bestFallbackLayer_mem hover.2.2.1)
      rw [routingFocusAdjustment, if_neg hne, if_pos ⟨happlied, hover.1, hover.2.1, hne⟩, zero_sub]
    rw [hdemoted, adjustment_selected hselected.symm, routingDemotedHigherLevelPenalty,
      routingFocusBoost] at hle
    omega
  · intro hover
    by_cases hselected : secondary.layer = (selectRoutingFocus intent scored).selectedLayer
    · rw [adjustment_selected hselected, routingFocusBoost]
      rcases adjustment_ge intent (selectRoutingFocus intent scored) aligned.layer with
        hge | ⟨-, happlied, hhigher, hlayer⟩
      · omega
      · exact absurd ((focus_falls_back_iff hmem hlayer hhigher).mp ⟨happlied, hselected.symm⟩)
          hover
    · have hle := @adjustment_le intent _ _ hselected
      rcases adjustment_ge intent (selectRoutingFocus intent scored) aligned.layer with
        hge | ⟨hdemoted, -⟩
      · omega
      · rw [hdemoted, routingDemotedHigherLevelPenalty]
        omega

section Examples

/-- A weakly supported pattern that matches the anchor. -/
def patternCandidate : ScoredCandidate where
  resultId := "pattern"
  anchorState := some .aligned
  layer := .patternMemory
  supportScore := 20
  retrievalScore := 10
  scoredRoutingScore := 240
  suppressionPenalty := 0
  componentAdjustment := 0

/-- A checkpoint without anchors. -/
def checkpointCandidate (supportScore : ℤ) : ScoredCandidate :=
  { patternCandidate with
    resultId := "checkpoint"
    anchorState := some .legacy
    layer := .taskCheckpoint
    supportScore := supportScore }

theorem aligned_outranks_iff_weak :
    routingScore .recall [patternCandidate, checkpointCandidate 40]
        [patternCandidate, checkpointCandidate 40] (checkpointCandidate 40) ≤
      routingScore .recall [patternCandidate, checkpointCandidate 40]
        [patternCandidate, checkpointCandidate 40] patternCandidate :=
  (aligned_outranks_iff .recall [patternCandidate, checkpointCandidate 40]
    [patternCandidate, checkpointCandidate 40] patternCandidate (checkpointCandidate 40)
    List.mem_cons_self rfl rfl rfl).mpr fun hover => by
      have hmargin := hover.2.2.2.1
      revert hmargin
      decide +kernel

/-- The focus falls back from the pattern to the strongly supported checkpoint. -/
theorem secondary_overtakes :
    ¬ ∀ (intent : Intent) (retrieved scored : List ScoredCandidate)
      (aligned secondary : ScoredCandidate), aligned ∈ scored → secondary ∈ scored →
      anchorPrefilterStatus retrieved aligned = some .aligned →
      anchorPrefilterStatus retrieved secondary = some .secondaryTier →
      aligned.scoreApart = secondary.scoreApart →
        routingScore intent scored retrieved secondary ≤
          routingScore intent scored retrieved aligned := by
  intro houtranks
  have hle := houtranks .recall [patternCandidate, checkpointCandidate 120]
    [patternCandidate, checkpointCandidate 120] patternCandidate (checkpointCandidate 120)
    List.mem_cons_self (List.mem_cons_of_mem _ List.mem_cons_self) rfl rfl rfl
  revert hle
  decide +kernel

end Examples

end Pallium.Routing
