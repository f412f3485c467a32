import Mathlib

/-!
# Results of a query

The fields of a result that the fusion of two rankings and the search of sources read,
write or compare.
-/

namespace Pallium.Fusion

/-- `retrieval_source` of a fused result. -/
inductive RetrievalSource
  | both
  | lexical
  | vector
deriving DecidableEq, Repr

/-- A result; `rest` is what is copied alone. -/
structure QueryResultItem (Reference Rest : Type) where
  resultKind : String
  score : ℚ
  evidence : List Reference
  resultId : Option String := none
  sourceType : Option String := none
  sourceId : Option String := none
  actorRef : Option String := none
  role : Option String := none
  containerRef : Option String := none
  threadRef : Option String := none
  retrievalSource : Option RetrievalSource := none
  sourceContentFingerprint : Option String := none
  lexicalScore : Option ℚ := none
  vectorScore : Option ℚ := none
  rawRank : Option ℕ := none
  rest : Rest
deriving DecidableEq, Repr

end Pallium.Fusion
