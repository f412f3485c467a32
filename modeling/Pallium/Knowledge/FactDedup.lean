import Pallium.Core.Text

/-!
# Duplicates among extracted facts

The facts that were extracted from the parts of a conversation are merged.  A fact whose
subject and statement were met before is left out, and so is one whose statement is close
to that of a kept fact of the same subject and category.  What was met is recorded before
the second test, so that a fact can be left out for one that was itself left out.
-/

namespace Pallium.Knowledge

/-- A fact as the model wrote it; any of its values may be missing. -/
structure ExtractedFact (ν : Type) where
  subject : Option ν
  statement : Option ν
  category : Option ν
  deriving DecidableEq, Repr

/-- How values are written as texts, and which tokens are found in a text. -/
structure Reader (ν : Type) where
  str : ν → String
  lower : String → String
  tokenizeText : String → List String

def contentStopwords : List String := [
  "a", "an", "the", "is", "are", "was", "were", "be", "been", "being",
  "have", "has", "had", "do", "does", "did", "will", "would", "could",
  "should", "may", "might", "shall", "can", "must", "need",
  "i", "me", "my", "we", "us", "our", "you", "your", "he", "she",
  "it", "they", "them", "their", "its", "his", "her",
  "in", "on", "at", "to", "for", "of", "with", "by", "from", "up",
  "about", "into", "through", "during", "before", "after", "above",
  "below", "between", "out", "off", "over", "under",
  "and", "but", "or", "nor", "not", "so", "yet", "both", "either",
  "neither", "each", "every", "all", "any", "few", "more", "most",
  "other", "some", "such", "no", "only", "own", "same", "than", "too",
  "very", "just", "also", "now", "then", "here", "there", "when",
  "where", "why", "how", "what", "which", "who", "whom", "this",
  "that", "these", "those", "if", "as",
  "של", "על", "את", "עם", "אל", "מן", "לא", "כי", "גם", "או",
  "אם", "הוא", "היא", "הם", "הן", "אני", "אנחנו", "אתה",
  "זה", "זו", "זאת", "אלה", "כל", "עוד", "רק", "כבר", "מאוד",
  "בין", "אבל", "אז", "כמו", "יותר", "פה", "שם"]

def isLowInformationContentToken (token : String) : Bool :=
  match token.toList with
  | [letter] => letter.isAlpha
  | _ => false

def isAscii (token : String) : Bool := token.toList.all fun c => c.toNat < 128

def endsWithAny (token : String) (suffixes : List String) : Bool :=
  suffixes.any fun suffix => suffix.toList.isSuffixOf token.toList

/-- A token without its last characters. -/
def withoutEnd (token : String) (count : ℕ) : String :=
  String.ofList (token.toList.take (token.length - count))

/-- The stem of an English plural. -/
def pluralStem (token : String) : Option String :=
  if !isAscii token then none
  else if 4 < token.length && endsWithAny token ["ies"] then some (withoutEnd token 3 ++ "y")
  else if 5 < token.length && endsWithAny token ["es"] && !endsWithAny token ["ses", "xes", "zes"]
  then some (withoutEnd token 2)
  else if 4 < token.length && endsWithAny token ["s"] &&
      !endsWithAny token ["ss", "us", "is", "ses", "xes", "zes"]
  then some (withoutEnd token 1)
  else none

section Dedup

variable {ν : Type} (reader : Reader ν)

def normalizeForIndex (text : String) : String := " ".intercalate (reader.tokenizeText text)

def contentTokens (text : String) : Finset String :=
  let raw := (Text.splitWords (normalizeForIndex reader text)).filter fun token =>
    !contentStopwords.contains token && !isLowInformationContentToken token
  (raw.flatMap fun token => token :: (pluralStem token).toList).toFinset

/-- `str(fact.get(name, ""))`. -/
def written (value : Option ν) : String := (value.map reader.str).getD ""

namespace ExtractedFact

variable (fact : ExtractedFact ν)

/-- The normalised subject and statement. -/
def key : String × String :=
  (normalizeForIndex reader (written reader fact.subject),
    normalizeForIndex reader (written reader fact.statement))

def lowerCategory : String := reader.lower (written reader fact.category)

def tokens : Finset String := contentTokens reader (written reader fact.statement)

end ExtractedFact

/-- An entry of `accepted_tokens`. -/
structure AcceptedTokens where
  subject : String
  category : String
  tokens : Finset String
  deriving DecidableEq

def ExtractedFact.accepted (fact : ExtractedFact ν) : AcceptedTokens where
  subject := (fact.key reader).1
  category := fact.lowerCategory reader
  tokens := fact.tokens reader

/-- More than three quarters of the joint tokens are common. -/
def overlap (tokens others : Finset String) : Bool :=
  3 * (tokens ∪ others).card < 4 * (tokens ∩ others).card

/-- Whether an entry has the subject, the category and most tokens of a fact. -/
def AcceptedTokens.covers (entry : AcceptedTokens) (fact : ExtractedFact ν) : Bool :=
  entry.subject == (fact.key reader).1 && entry.category == fact.lowerCategory reader &&
    overlap (fact.tokens reader) entry.tokens

structure Dedup (ν : Type) where
  seen : List (String × String)
  accepted : List AcceptedTokens
  result : List (ExtractedFact ν)

def Dedup.isParaphrase (dedup : Dedup ν) (fact : ExtractedFact ν) : Bool :=
  3 ≤ (fact.tokens reader).card && dedup.accepted.any fun entry => entry.covers reader fact

def Dedup.start (existing : List (ExtractedFact ν)) : Dedup ν where
  seen := existing.map (ExtractedFact.key reader)
  accepted := (existing.map (ExtractedFact.accepted reader)).filter fun entry => entry.tokens ≠ ∅
  result := []

def Dedup.take (dedup : Dedup ν) (fact : ExtractedFact ν) : Dedup ν :=
  if fact.key reader ∈ dedup.seen then dedup
  else
    let seen := fact.key reader :: dedup.seen
    if dedup.isParaphrase reader fact then { dedup with seen := seen }
    else ⟨seen, dedup.accepted ++ [fact.accepted reader], dedup.result ++ [fact]⟩

/-- The loop of `_dedup_extracted_facts`. -/
def dedupFacts (existing facts : List (ExtractedFact ν)) : Dedup ν :=
  facts.foldl (Dedup.take reader) (Dedup.start reader existing)

def dedupExtractedFacts (facts existing : List (ExtractedFact ν)) : List (ExtractedFact ν) :=
  (dedupFacts reader existing facts).result

/-- A fact repeats one of the others, or has the subject, the category and most tokens of
one. -/
def Duplicates (fact : ExtractedFact ν) (others : List (ExtractedFact ν)) : Prop :=
  (∃ other ∈ others, other.key reader = fact.key reader) ∨
    ∃ other ∈ others, (other.accepted reader).covers reader fact

instance (fact : ExtractedFact ν) (others : List (ExtractedFact ν)) :
    Decidable (Duplicates reader fact others) :=
  inferInstanceAs (Decidable (_ ∨ _))

/-- What is kept are some of the facts, none of which repeats another or an existing one,
and what is left out duplicates something that was kept or existed. -/
structure DropsOnlyDuplicates (facts existing kept : List (ExtractedFact ν)) : Prop where
  part : kept.Sublist facts
  apart : kept.Pairwise fun first later => first.key reader ≠ later.key reader
  new : ∀ fact ∈ kept, ∀ other ∈ existing, other.key reader ≠ fact.key reader
  justified : ∀ fact ∈ facts, Duplicates reader fact (existing ++ kept)

/-- The loop is about to keep the fact. -/
def Dedup.Keeps (dedup : Dedup ν) (fact : ExtractedFact ν) : Prop :=
  fact.key reader ∉ dedup.seen ∧ dedup.isParaphrase reader fact = false

/-- The loop is about to leave out a fact that it meets for the first time. -/
def Dedup.Paraphrases (dedup : Dedup ν) (fact : ExtractedFact ν) : Prop :=
  fact.key reader ∉ dedup.seen ∧ dedup.isParaphrase reader fact = true

/-- A fact that repeats, under another category, one that was left out as a paraphrase is
itself covered by an existing fact or by one that the loop keeps in its turn. -/
def RepeatsCovered (facts existing : List (ExtractedFact ν)) : Prop :=
  ∀ before fact between again after,
    facts = before ++ fact :: (between ++ again :: after) →
    (dedupFacts reader existing before).Paraphrases reader fact →
    again.key reader = fact.key reader → again.lowerCategory reader ≠ fact.lowerCategory reader →
      (∃ other ∈ existing, (other.accepted reader).covers reader again) ∨
        ∃ front other back, facts = front ++ other :: back ∧
          (dedupFacts reader existing front).Keeps reader other ∧
            (other.accepted reader).covers reader again

variable {reader} {existing facts : List (ExtractedFact ν)} {fact : ExtractedFact ν}
  {front back : List (ExtractedFact ν)}

/-- A fact was met before, is left out as a paraphrase, or is kept. -/
theorem Dedup.take_cases (dedup : Dedup ν) (fact : ExtractedFact ν) :
    (fact.key reader ∈ dedup.seen ∧ dedup.take reader fact = dedup) ∨
      (dedup.Paraphrases reader fact ∧
        dedup.take reader fact = { dedup with seen := fact.key reader :: dedup.seen }) ∨
      (dedup.Keeps reader fact ∧
        dedup.take reader fact = ⟨fact.key reader :: dedup.seen,
          dedup.accepted ++ [fact.accepted reader], dedup.result ++ [fact]⟩) := by
  unfold Dedup.take
  split
  · next hmet => exact Or.inl ⟨hmet, rfl⟩
  · next hnew =>
      cases hparaphrase : dedup.isParaphrase reader fact with
      | true => exact Or.inr (Or.inl ⟨⟨hnew, hparaphrase⟩, rfl⟩)
      | false => exact Or.inr (Or.inr ⟨⟨hnew, hparaphrase⟩, rfl⟩)

theorem dedupFacts_append (existing facts : List (ExtractedFact ν)) (fact : ExtractedFact ν) :
    dedupFacts reader existing (facts ++ [fact]) =
      (dedupFacts reader existing facts).take reader fact := by
  rw [dedupFacts, List.foldl_append]
  rfl

theorem mem_seen_iff {pair : String × String} :
    pair ∈ (dedupFacts reader existing facts).seen ↔
      pair ∈ existing.map (ExtractedFact.key reader) ∨
        pair ∈ facts.map (ExtractedFact.key reader) := by
  induction facts using List.reverseRecOn with
  | nil => exact (or_iff_left List.not_mem_nil).symm
  | append_singleton facts fact ih =>
    rw [dedupFacts_append, List.map_append, List.map_singleton, List.mem_append,
      List.mem_singleton, ← or_assoc, ← ih]
    rcases Dedup.take_cases (dedupFacts reader existing facts) fact with
      ⟨hmet, htake⟩ | ⟨-, htake⟩ | ⟨-, htake⟩
    · rw [htake]
      refine ⟨Or.inl, fun hpair => hpair.elim id ?_⟩
      rintro rfl
      exact hmet
    · rw [htake, List.mem_cons, or_comm]
    · rw [htake, List.mem_cons, or_comm]

/-- What is kept is what the loop was about to keep in its turn. -/
theorem mem_result_iff :
    fact ∈ (dedupFacts reader existing facts).result ↔
      ∃ front back, facts = front ++ fact :: back ∧
        (dedupFacts reader existing front).Keeps reader fact := by
  induction facts using List.reverseRecOn with
  | nil =>
    refine ⟨fun hmem => absurd hmem List.not_mem_nil, ?_⟩
    rintro ⟨front, back, hsplit, -⟩
    exact absurd hsplit (by simp)
  | append_singleton facts last ih =>
    have hsplits : (∃ front back, facts ++ [last] = front ++ fact :: back ∧
        (dedupFacts reader existing front).Keeps reader fact) ↔
          (∃ front back, facts = front ++ fact :: back ∧
            (dedupFacts reader existing front).Keeps reader fact) ∨
              fact = last ∧ (dedupFacts reader existing facts).Keeps reader fact := by
      constructor
      · rintro ⟨front, back, hsplit, hkeeps⟩
        rcases List.eq_nil_or_concat back with rfl | ⟨middle, final, rfl⟩
        · obtain ⟨rfl, hlast⟩ := List.append_inj' hsplit rfl
          exact Or.inr ⟨(List.cons.inj hlast).1.symm, hkeeps⟩
        · rw [List.concat_eq_append, ← List.cons_append, ← List.append_assoc] at hsplit
          exact Or.inl ⟨front, middle, (List.append_inj' hsplit rfl).1, hkeeps⟩
      · rintro (⟨front, back, rfl, hkeeps⟩ | ⟨rfl, hkeeps⟩)
        · exact ⟨front, back ++ [last], by simp, hkeeps⟩
        · exact ⟨facts, [], rfl, hkeeps⟩
    rw [hsplits, ← ih, dedupFacts_append]
    rcases Dedup.take_cases (dedupFacts reader existing facts) last with
      ⟨hmet, htake⟩ | ⟨hout, htake⟩ | ⟨hkeeps, htake⟩
    · rw [htake]
      refine (or_iff_left ?_).symm
      rintro ⟨rfl, hkeeps⟩
      exact hkeeps.1 hmet
    · rw [htake]
      refine (or_iff_left ?_).symm
      rintro ⟨rfl, hkeeps⟩
      exact Bool.false_ne_true (hkeeps.2.symm.trans hout.2)
    · rw [htake, List.mem_append, List.mem_singleton]
      refine or_congr_right ⟨?_, And.left⟩
      rintro rfl
      exact ⟨rfl, hkeeps⟩

theorem result_sublist : (dedupFacts reader existing facts).result.Sublist facts := by
  induction facts using List.reverseRecOn with
  | nil => exact List.Sublist.slnil
  | append_singleton facts fact ih =>
    rw [dedupFacts_append]
    rcases Dedup.take_cases (dedupFacts reader existing facts) fact with
      ⟨-, htake⟩ | ⟨-, htake⟩ | ⟨-, htake⟩
    · rw [htake]
      exact ih.trans (List.sublist_append_left _ _)
    · rw [htake]
      exact ih.trans (List.sublist_append_left _ _)
    · rw [htake]
      exact ih.append_right [fact]

theorem result_apart : (dedupFacts reader existing facts).result.Pairwise
    fun first later => first.key reader ≠ later.key reader := by
  induction facts using List.reverseRecOn with
  | nil => exact List.Pairwise.nil
  | append_singleton facts fact ih =>
    rw [dedupFacts_append]
    rcases Dedup.take_cases (dedupFacts reader existing facts) fact with
      ⟨-, htake⟩ | ⟨-, htake⟩ | ⟨hkeeps, htake⟩
    · rw [htake]
      exact ih
    · rw [htake]
      exact ih
    · rw [htake]
      refine List.pairwise_append.mpr
        ⟨ih, List.pairwise_singleton _ _, fun first hfirst last hlast => ?_⟩
      obtain rfl := List.mem_singleton.mp hlast
      intro hsame
      refine hkeeps.1 (mem_seen_iff.mpr (Or.inr ?_))
      exact hsame ▸ List.mem_map_of_mem (result_sublist.subset hfirst)

/-- What the paraphrase test looks at are the existing facts and the kept ones. -/
theorem mem_accepted {entry : AcceptedTokens}
    (hentry : entry ∈ (dedupFacts reader existing facts).accepted) :
    ∃ other ∈ existing ++ (dedupFacts reader existing facts).result,
      other.accepted reader = entry := by
  induction facts using List.reverseRecOn with
  | nil =>
    obtain ⟨other, hother, rfl⟩ := List.mem_map.mp (List.mem_filter.mp hentry).1
    exact ⟨other, List.mem_append_left _ hother, rfl⟩
  | append_singleton facts fact ih =>
    rw [dedupFacts_append] at hentry ⊢
    rcases Dedup.take_cases (dedupFacts reader existing facts) fact with
      ⟨-, htake⟩ | ⟨-, htake⟩ | ⟨-, htake⟩
    · rw [htake] at hentry ⊢
      exact ih hentry
    · rw [htake] at hentry ⊢
      exact ih hentry
    · rw [htake] at hentry ⊢
      rcases List.mem_append.mp hentry with hold | hnew
      · obtain ⟨other, hother, hsame⟩ := ih hold
        refine ⟨other, ?_, hsame⟩
        rw [← List.append_assoc]
        exact List.mem_append_left _ hother
      · obtain rfl := List.mem_singleton.mp hnew
        exact ⟨fact, by simp, rfl⟩

theorem result_subset :
    (dedupFacts reader existing front).result ⊆
      (dedupFacts reader existing (front ++ back)).result := by
  intro fact hfact
  obtain ⟨before, after, rfl, hkeeps⟩ := mem_result_iff.mp hfact
  exact mem_result_iff.mpr ⟨before, after ++ back, by simp, hkeeps⟩

/-- A paraphrase is covered by an existing fact or by one that is kept in the end. -/
theorem Dedup.Paraphrases.covered {front : List (ExtractedFact ν)} (back : List (ExtractedFact ν))
    (hout : (dedupFacts reader existing front).Paraphrases reader fact) :
    ∃ other ∈ existing ++ (dedupFacts reader existing (front ++ back)).result,
      (other.accepted reader).covers reader fact := by
  have hany := hout.2
  rw [Dedup.isParaphrase, Bool.and_eq_true, List.any_eq_true] at hany
  obtain ⟨-, entry, hentry, hcovers⟩ := hany
  obtain ⟨other, hother, rfl⟩ := mem_accepted hentry
  refine ⟨other, ?_, hcovers⟩
  rcases List.mem_append.mp hother with hold | hkept
  · exact List.mem_append_left _ hold
  · exact List.mem_append_right _ (result_subset hkept)

/-- Covering depends on the subject, the statement and the category alone. -/
theorem covers_congr {entry : AcceptedTokens} {again : ExtractedFact ν}
    (hkey : again.key reader = fact.key reader)
    (hcategory : again.lowerCategory reader = fact.lowerCategory reader)
    (hcovers : entry.covers reader fact) : entry.covers reader again := by
  have htokens : again.tokens reader = fact.tokens reader := by
    rw [ExtractedFact.tokens, contentTokens, ExtractedFact.tokens, contentTokens]
    rw [show normalizeForIndex reader (written reader again.statement) =
      normalizeForIndex reader (written reader fact.statement) from congrArg Prod.snd hkey]
  rw [AcceptedTokens.covers, hkey, hcategory, htokens]
  exact hcovers

/-- No fact with the subject and statement of a paraphrase is kept. -/
theorem not_kept_of_paraphrases
    (hout : (dedupFacts reader existing front).Paraphrases reader fact) :
    ∀ other ∈ (dedupFacts reader existing (front ++ fact :: back)).result,
      other.key reader ≠ fact.key reader := by
  intro other hother hsame
  obtain ⟨front', back', hsplit, hkeeps⟩ := mem_result_iff.mp hother
  rcases List.append_eq_append_iff.mp hsplit with ⟨middle, hfront, hrest⟩ | ⟨middle, hfront, hrest⟩
  · cases middle with
    | nil =>
      rw [List.append_nil] at hfront
      rw [List.nil_append, List.cons.injEq] at hrest
      rw [hfront, ← hrest.1] at hkeeps
      exact Bool.false_ne_true (hkeeps.2.symm.trans hout.2)
    | cons first middle =>
      rw [List.cons_append, List.cons.injEq] at hrest
      refine hkeeps.1 (mem_seen_iff.mpr (Or.inr ?_))
      rw [hsame, hfront, hrest.1]
      exact List.mem_map_of_mem (by simp)
  · cases middle with
    | nil =>
      rw [List.append_nil] at hfront
      rw [List.nil_append, List.cons.injEq] at hrest
      rw [← hfront, hrest.1] at hkeeps
      exact Bool.false_ne_true (hkeeps.2.symm.trans hout.2)
    | cons first middle =>
      rw [List.cons_append, List.cons.injEq] at hrest
      refine hout.1 (mem_seen_iff.mpr (Or.inr ?_))
      rw [← hsame, hfront, hrest.1]
      exact List.mem_map_of_mem (by simp)

theorem kept_or_paraphrases (hnew : fact.key reader ∉ (dedupFacts reader existing facts).seen) :
    (dedupFacts reader existing facts).Keeps reader fact ∨
      (dedupFacts reader existing facts).Paraphrases reader fact := by
  cases hparaphrase : (dedupFacts reader existing facts).isParaphrase reader fact with
  | true => exact Or.inr ⟨hnew, hparaphrase⟩
  | false => exact Or.inl ⟨hnew, hparaphrase⟩

/-- A fact that the loop meets for the first time is kept, or covered by what is kept. -/
theorem duplicates_of_new (hnew : fact.key reader ∉ (dedupFacts reader existing front).seen) :
    Duplicates reader fact
      (existing ++ (dedupFacts reader existing (front ++ fact :: back)).result) := by
  rcases kept_or_paraphrases hnew with hkeeps | hout
  · have hkept := mem_result_iff.mpr ⟨front, back, rfl, hkeeps⟩
    exact Or.inl ⟨fact, List.mem_append_right _ hkept, rfl⟩
  · exact Or.inr (hout.covered _)

/-- A fact with the key of an earlier one is covered by what the first of these is kept or
left out for. -/
theorem duplicates_of_met (hcovered : RepeatsCovered reader (front ++ fact :: back) existing)
    (hmet : ∃ other ∈ front, other.key reader = fact.key reader) :
    Duplicates reader fact
      (existing ++ (dedupFacts reader existing (front ++ fact :: back)).result) := by
  cases hfind : front.find? fun other => other.key reader == fact.key reader with
  | none =>
    obtain ⟨other, hother, hsame⟩ := hmet
    exact absurd (beq_iff_eq.mpr hsame) (List.find?_eq_none.mp hfind other hother)
  | some earlier =>
    obtain ⟨hkey, before, between, rfl, hfirst⟩ := List.find?_eq_some_iff_append.mp hfind
    rw [beq_iff_eq] at hkey
    have hsplit : before ++ earlier :: between ++ fact :: back =
        before ++ earlier :: (between ++ fact :: back) := by simp
    by_cases hearly : earlier.key reader ∈ (dedupFacts reader existing before).seen
    · rcases mem_seen_iff.mp hearly with hold | hbefore
      · obtain ⟨other, hother, hsame⟩ := List.mem_map.mp hold
        exact Or.inl ⟨other, List.mem_append_left _ hother, hsame.trans hkey⟩
      · obtain ⟨other, hother, hsame⟩ := List.mem_map.mp hbefore
        have hdiffers := hfirst other hother
        rw [beq_iff_eq.mpr (hsame.trans hkey)] at hdiffers
        cases hdiffers
    · rw [hsplit]
      rcases kept_or_paraphrases hearly with hkeeps | hout
      · have hkept := mem_result_iff.mpr ⟨before, between ++ fact :: back, rfl, hkeeps⟩
        exact Or.inl ⟨earlier, List.mem_append_right _ hkept, hkey⟩
      · by_cases hcategory : fact.lowerCategory reader = earlier.lowerCategory reader
        · obtain ⟨other, hother, hcovers⟩ :=
            hout.covered (earlier :: (between ++ fact :: back))
          exact Or.inr ⟨other, hother, covers_congr hkey.symm hcategory hcovers⟩
        · rcases hcovered before earlier between fact back hsplit hout hkey.symm hcategory with
            ⟨other, hother, hcovers⟩ | ⟨first, other, later, hother, hkeeps, hcovers⟩
          · exact Or.inr ⟨other, List.mem_append_left _ hother, hcovers⟩
          · have hkept := mem_result_iff.mpr ⟨first, later, hother, hkeeps⟩
            rw [hsplit] at hkept
            exact Or.inr ⟨other, List.mem_append_right _ hkept, hcovers⟩

end Dedup

section Chain

/-- Texts of words in lower case with white space between them. -/
def plainReader : Reader String where
  str := id
  lower := id
  tokenizeText := Text.splitWords

def launchPlan (statement category : String) : ExtractedFact String where
  subject := some "launch"
  statement := some statement
  category := some category

def knownPlans : List (ExtractedFact String) := [launchPlan "alpha beta gamma delta" "plan"]

/-- The event repeats the statement of a plan that is left out as a paraphrase. -/
def launchFacts : List (ExtractedFact String) :=
  [launchPlan "alpha beta gamma delta omega" "plan",
    launchPlan "alpha beta gamma delta omega" "event"]

end Chain

end Pallium.Knowledge
