import Pallium.Core.LowerCase

/-!
# Canonical container references

A reference to a repository on GitHub is written in lower case, without a suffix and
without a slash at its end.  Any other reference stays as it is.  One pass removes one
suffix, so that a name that ends in a second suffix is not a fixed point.
-/

namespace Pallium.Access

open Text

/-- A literal of the expression matches a character in either case.  The letter `i`
also matches its forms with and without a dot. -/
def LiteralMatches (literal c : Char) : Prop :=
  c = literal ∨ c = literal.toUpper ∨ (literal = 'i' ∧ (c = 'İ' ∨ c = 'ı'))

instance (literal c : Char) : Decidable (LiteralMatches literal c) :=
  inferInstanceAs (Decidable (_ ∨ _ ∨ _))

def MatchesText (literals text : List Char) : Prop := List.Forall₂ LiteralMatches literals text

/-- What follows the literals at the front of a text. -/
def afterLiterals : List Char → List Char → Option (List Char)
  | [], text => some text
  | _ :: _, [] => none
  | literal :: literals, c :: text =>
    if LiteralMatches literal c then afterLiterals literals text else none

def githubPrefix : List Char := "git:github.com/".toList

def gitSuffix : List Char := ".git".toList

/-- `/?` at the end of the expression. -/
def atEnd (text : List Char) : Bool := text = [] || text = ['/']

/-- `(?:\\.git)?/?` at the end of the expression. -/
def atSuffix (text : List Char) : Bool :=
  (afterLiterals gitSuffix text).any atEnd || atEnd text

/-- `([^/]+?)` before the optional ends: the shortest group after which they match. -/
def lazyGroup (taken : List Char) : List Char → Option (List Char)
  | [] => if taken ≠ [] ∧ atSuffix [] then some taken else none
  | c :: rest =>
    if taken ≠ [] ∧ atSuffix (c :: rest) then some taken
    else if c = '/' then none
    else lazyGroup (taken ++ [c]) rest

/-- `([^/]+)/` and the group behind it. -/
def matchPath (path : List Char) : Option (List Char × List Char) :=
  let owner := path.takeWhile (· ≠ '/')
  if owner = [] then none
  else match path.dropWhile (· ≠ '/') with
    | [] => none
    | _ :: rest => (lazyGroup [] rest).map fun name => (owner, name)

/-- `_GITHUB_REF.fullmatch`: the owner and the repository of a reference. -/
def fullmatch (value : List Char) : Option (List Char × List Char) :=
  (afterLiterals githubPrefix value).bind matchPath

def canonicalText (cases : CaseTable) (value : List Char) : List Char :=
  match fullmatch value with
  | none => value
  | some (owner, name) =>
    githubPrefix ++ cases.lower owner ++ '/' :: cases.lower name

def canonicalizeContainerRef (cases : CaseTable) (value : Option String) : Option String :=
  value.map fun text => String.ofList (canonicalText cases text.toList)

/-- A name with a suffix behind something else. -/
def EndsWithSuffix (name : List Char) : Prop :=
  ∃ front suffix, name = front ++ suffix ∧ front ≠ [] ∧ MatchesText gitSuffix suffix

/-- A reference to a repository: the host in any letter case, an owner, a name, a suffix
in any letter case or none, and a slash or none.  A name whose end could be the suffix is
followed by a suffix. -/
structure GithubReference where
  host : List Char
  owner : List Char
  name : List Char
  suffix : List Char
  slash : Bool
  host_matches : MatchesText githubPrefix host
  owner_ne : owner ≠ []
  owner_slash : '/' ∉ owner
  name_ne : name ≠ []
  name_slash : '/' ∉ name
  suffix_matches : suffix = [] ∨ MatchesText gitSuffix suffix
  plain : suffix = [] → ¬ EndsWithSuffix name

namespace GithubReference

def ending (reference : GithubReference) : List Char := if reference.slash then ['/'] else []

def text (reference : GithubReference) : List Char :=
  reference.host ++ reference.owner ++
    '/' :: (reference.name ++ reference.suffix ++ reference.ending)

end GithubReference

variable {literals text rest taken name : List Char} {c : Char}

theorem afterLiterals_eq_some :
    afterLiterals literals text = some rest ↔
      ∃ front, MatchesText literals front ∧ text = front ++ rest := by
  induction literals generalizing text with
  | nil => simp [afterLiterals, MatchesText, eq_comm]
  | cons literal literals ih =>
    rcases text with _ | ⟨c, text⟩
    · simp [afterLiterals, MatchesText]
    · rw [afterLiterals]
      constructor
      · intro hafter
        split at hafter
        · rename_i hliteral
          obtain ⟨front, hfront, rfl⟩ := ih.1 hafter
          exact ⟨c :: front, List.Forall₂.cons hliteral hfront, rfl⟩
        · exact nomatch hafter
      · rintro ⟨front, hfront, htext⟩
        rcases hfront with _ | ⟨hliteral, hfront⟩
        obtain ⟨rfl, rfl⟩ := List.cons.inj htext
        rw [if_pos hliteral]
        exact ih.2 ⟨_, hfront, rfl⟩

theorem atEnd_iff : atEnd text ↔ text = [] ∨ text = ['/'] := by
  simp [atEnd]

theorem atSuffix_iff :
    atSuffix text ↔ ∃ suffix ending, (suffix = [] ∨ MatchesText gitSuffix suffix) ∧
      atEnd ending ∧ text = suffix ++ ending := by
  rw [atSuffix, Bool.or_eq_true]
  constructor
  · rintro (hsuffix | hend)
    · obtain ⟨ending, hafter, hend⟩ := (Option.any_eq_true _ _).1 hsuffix
      obtain ⟨suffix, hmatch, rfl⟩ := afterLiterals_eq_some.1 hafter
      exact ⟨suffix, ending, Or.inr hmatch, hend, rfl⟩
    · exact ⟨[], text, Or.inl rfl, hend, rfl⟩
  · rintro ⟨suffix, ending, rfl | hmatch, hend, rfl⟩
    · exact Or.inr hend
    · exact Or.inl ((Option.any_eq_true _ _).2
        ⟨ending, afterLiterals_eq_some.2 ⟨suffix, hmatch, rfl⟩, hend⟩)

/-- A group of characters that ends at the first place at which the optional ends match. -/
structure ShortestGroup (taken rest name more tail : List Char) : Prop where
  split : rest = more ++ tail
  joined : name = taken ++ more
  ne : name ≠ []
  slash : '/' ∉ more
  suffix : atSuffix tail
  shortest : ∀ front back, more = front ++ back → back ≠ [] → taken ++ front ≠ [] →
    ¬ atSuffix (back ++ tail)

theorem ShortestGroup.cons {more tail : List Char}
    (hgroup : ShortestGroup (taken ++ [c]) rest name more tail) (hslash : c ≠ '/')
    (hopen : ¬ (taken ≠ [] ∧ atSuffix (c :: rest))) :
    ShortestGroup taken (c :: rest) name (c :: more) tail where
  split := by rw [hgroup.split, List.cons_append]
  joined := by rw [hgroup.joined, List.append_assoc, List.singleton_append]
  ne := hgroup.ne
  slash := by
    rw [List.mem_cons, not_or]
    exact ⟨hslash.symm, hgroup.slash⟩
  suffix := hgroup.suffix
  shortest := by
    intro front back hmore hback htaken
    rcases front with _ | ⟨first, front⟩
    · rw [List.append_nil] at htaken
      rw [List.nil_append] at hmore
      rw [← hmore, List.cons_append, ← hgroup.split]
      exact fun hsuffix => hopen ⟨htaken, hsuffix⟩
    · have hshorter : more = front ++ back := (List.cons.inj hmore).2
      exact hgroup.shortest front back hshorter hback (by simp)

theorem ShortestGroup.of_cons {more tail : List Char}
    (hgroup : ShortestGroup taken (c :: rest) name more tail)
    (hopen : ¬ (taken ≠ [] ∧ atSuffix (c :: rest))) :
    c ≠ '/' ∧ ∃ shorter, ShortestGroup (taken ++ [c]) rest name shorter tail := by
  rcases more with _ | ⟨first, more⟩
  · refine absurd ⟨?_, ?_⟩ hopen
    · have hname := hgroup.ne
      rwa [hgroup.joined, List.append_nil] at hname
    · have hsuffix := hgroup.suffix
      rwa [← List.nil_append tail, ← hgroup.split] at hsuffix
  · obtain ⟨rfl, hsplit⟩ := List.cons.inj hgroup.split
    have hslash := hgroup.slash
    rw [List.mem_cons, not_or] at hslash
    refine ⟨hslash.1 ∘ Eq.symm, more, hsplit, ?_, hgroup.ne, hslash.2, hgroup.suffix, ?_⟩
    · rw [hgroup.joined, List.append_assoc, List.singleton_append]
    · intro front back hmore hback _
      exact hgroup.shortest (c :: front) back (by rw [hmore]; rfl) hback (by simp)

theorem lazyGroup_eq_some :
    lazyGroup taken rest = some name ↔ ∃ more tail, ShortestGroup taken rest name more tail := by
  induction rest generalizing taken with
  | nil =>
    have hend : atSuffix [] = true := by decide
    rw [lazyGroup]
    constructor
    · intro hgroup
      split at hgroup
      · rename_i htaken
        cases hgroup
        exact ⟨[], [], rfl, by simp, htaken.1, by simp, hend, by simp_all⟩
      · exact nomatch hgroup
    · rintro ⟨more, tail, hgroup⟩
      obtain ⟨rfl, rfl⟩ := List.append_eq_nil_iff.1 hgroup.split.symm
      have hname := hgroup.joined
      rw [List.append_nil] at hname
      subst hname
      rw [if_pos ⟨hgroup.ne, hend⟩]
  | cons c rest ih =>
    rw [lazyGroup]
    by_cases hopen : taken ≠ [] ∧ atSuffix (c :: rest)
    · rw [if_pos hopen]
      constructor
      · rintro hname
        cases hname
        exact ⟨[], c :: rest, rfl, by simp, hopen.1, by simp, hopen.2, by simp_all⟩
      · rintro ⟨more, tail, hgroup⟩
        by_cases hmore : more = []
        · rw [hgroup.joined, hmore, List.append_nil]
        · refine absurd hopen.2 ?_
          rw [hgroup.split]
          exact hgroup.shortest [] more rfl hmore (by simpa using hopen.1)
    · rw [if_neg hopen]
      by_cases hslash : c = '/'
      · rw [if_pos hslash]
        constructor
        · exact fun hname => nomatch hname
        · rintro ⟨more, tail, hgroup⟩
          exact absurd hslash (hgroup.of_cons hopen).1
      · rw [if_neg hslash, ih]
        constructor
        · rintro ⟨more, tail, hgroup⟩
          exact ⟨c :: more, tail, hgroup.cons hslash hopen⟩
        · rintro ⟨more, tail, hgroup⟩
          obtain ⟨_, shorter, hshorter⟩ := hgroup.of_cons hopen
          exact ⟨shorter, tail, hshorter⟩

theorem MatchesText.length (hmatch : MatchesText literals text) :
    text.length = literals.length := (List.Forall₂.length_eq hmatch).symm

theorem MatchesText.exists_literal (hmatch : MatchesText literals text) (hmem : c ∈ text) :
    ∃ literal ∈ literals, LiteralMatches literal c := by
  induction hmatch with
  | nil => simp at hmem
  | cons hliteral _ ih =>
    rcases List.mem_cons.1 hmem with rfl | hrest
    · exact ⟨_, List.mem_cons_self, hliteral⟩
    · obtain ⟨literal, hin, hmatches⟩ := ih hrest
      exact ⟨literal, List.mem_cons_of_mem _ hin, hmatches⟩

theorem gitSuffix_slash {suffix : List Char} (hmatch : MatchesText gitSuffix suffix) :
    '/' ∉ suffix := by
  intro hmem
  obtain ⟨literal, hliteral, hslash⟩ := hmatch.exists_literal hmem
  simp only [gitSuffix, String.reduceToList, List.mem_cons, List.not_mem_nil, or_false] at hliteral
  rcases hliteral with rfl | rfl | rfl | rfl
  all_goals
    revert hslash
    decide

theorem takeWhile_slash {front back : List Char} (hfront : '/' ∉ front)
    (hback : back.takeWhile (· ≠ '/') = []) :
    (front ++ back).takeWhile (· ≠ '/') = front := by
  rw [List.takeWhile_append_of_pos, hback, List.append_nil]
  intro c hmem
  exact decide_eq_true fun hslash => hfront (hslash ▸ hmem)

theorem dropWhile_slash {front back : List Char} (hfront : '/' ∉ front) :
    (front ++ '/' :: back).dropWhile (· ≠ '/') = '/' :: back := by
  rw [List.dropWhile_append_of_pos]
  · simp
  · intro c hmem
    exact decide_eq_true fun hslash => hfront (hslash ▸ hmem)

theorem takeWhile_of_atEnd {ending : List Char} (hend : atEnd ending) :
    ending.takeWhile (· ≠ '/') = [] := by
  rcases atEnd_iff.1 hend with rfl | rfl
  · rfl
  · simp

namespace GithubReference

variable (reference : GithubReference)

theorem atEnd_ending : atEnd reference.ending := by
  rw [ending]
  split <;> decide

theorem shortestGroup :
    ShortestGroup [] (reference.name ++ reference.suffix ++ reference.ending) reference.name
      reference.name (reference.suffix ++ reference.ending) where
  split := List.append_assoc _ _ _
  joined := rfl
  ne := reference.name_ne
  slash := reference.name_slash
  suffix := atSuffix_iff.2
    ⟨_, _, reference.suffix_matches, reference.atEnd_ending, rfl⟩
  shortest := by
    intro front back hname hback hfront hsuffix
    obtain ⟨suffix, ending, hmatches, hend, htail⟩ := atSuffix_iff.1 hsuffix
    have hbackslash : '/' ∉ back := fun hmem =>
      reference.name_slash (hname ▸ List.mem_append_right front hmem)
    have hown : '/' ∉ back ++ reference.suffix := by
      rw [List.mem_append, not_or]
      refine ⟨hbackslash, ?_⟩
      rcases reference.suffix_matches with hnone | hgit
      · simp [hnone]
      · exact gitSuffix_slash hgit
    have hother : '/' ∉ suffix := by
      rcases hmatches with rfl | hgit
      · simp
      · exact gitSuffix_slash hgit
    have hsame : back ++ reference.suffix = suffix := by
      have htaken := congrArg (List.takeWhile (· ≠ '/')) htail
      rwa [← List.append_assoc, takeWhile_slash hown (takeWhile_of_atEnd reference.atEnd_ending),
        takeWhile_slash hother (takeWhile_of_atEnd hend)] at htaken
    rcases hmatches with rfl | hgit
    · exact hback (List.append_eq_nil_iff.1 hsame).1
    · rcases reference.suffix_matches with hnone | hrefgit
      · rw [hnone, List.append_nil] at hsame
        exact reference.plain hnone ⟨front, back, hname, by simpa using hfront, hsame ▸ hgit⟩
      · have hlength := congrArg List.length hsame
        rw [List.length_append, hgit.length, hrefgit.length] at hlength
        exact hback (List.length_eq_zero_iff.1 (by omega))

theorem fullmatch_text :
    fullmatch reference.text = some (reference.owner, reference.name) := by
  have hpath : afterLiterals githubPrefix reference.text =
      some (reference.owner ++
        '/' :: (reference.name ++ reference.suffix ++ reference.ending)) :=
    afterLiterals_eq_some.2
      ⟨reference.host, reference.host_matches, by rw [text, List.append_assoc]⟩
  have hgroup : lazyGroup [] (reference.name ++ reference.suffix ++ reference.ending) =
      some reference.name := lazyGroup_eq_some.2 ⟨_, _, reference.shortestGroup⟩
  rw [fullmatch, hpath, Option.bind_some, matchPath,
    takeWhile_slash reference.owner_slash (by simp), dropWhile_slash reference.owner_slash]
  simp only [if_neg reference.owner_ne, hgroup, Option.map_some]

theorem of_fullmatch {value owner name : List Char}
    (hmatch : fullmatch value = some (owner, name)) :
    ∃ reference : GithubReference,
      reference.text = value ∧ reference.owner = owner ∧ reference.name = name := by
  obtain ⟨path, hpath, hgroups⟩ := Option.bind_eq_some_iff.1 hmatch
  obtain ⟨host, hhost, rfl⟩ := afterLiterals_eq_some.1 hpath
  simp only [matchPath] at hgroups
  split at hgroups
  · exact nomatch hgroups
  · rename_i howner
    rcases hdrop : path.dropWhile (· ≠ '/') with _ | ⟨c, rest⟩
    · rw [hdrop] at hgroups
      exact nomatch hgroups
    · simp only [hdrop] at hgroups
      obtain ⟨found, hgroup, hfound⟩ := Option.map_eq_some_iff.1 hgroups
      obtain ⟨rfl, rfl⟩ := Prod.mk.inj hfound
      obtain ⟨more, tail, hgroup⟩ := lazyGroup_eq_some.1 hgroup
      obtain ⟨suffix, ending, hsuffix, hend, rfl⟩ := atSuffix_iff.1 hgroup.suffix
      have hc : c = '/' := by
        have hhead := List.head?_dropWhile_not (· ≠ '/') path
        rw [hdrop] at hhead
        simpa using hhead
      have hname : found = more := hgroup.joined
      subst hc hname
      refine ⟨⟨host, path.takeWhile (· ≠ '/'), found, suffix, ending = ['/'], hhost, howner, ?_,
        hgroup.ne, hgroup.slash, hsuffix, ?_⟩, ?_, rfl, rfl⟩
      · intro hmem
        simpa using List.mem_takeWhile_imp hmem
      · rintro rfl ⟨front, git, hname, hfront, hgit⟩
        refine hgroup.shortest front git hname ?_ (by simpa using hfront) ?_
        · intro hnil
          rw [hnil] at hgit
          exact absurd hgit.length (by decide)
        · exact atSuffix_iff.2 ⟨git, ending, Or.inr hgit, hend, rfl⟩
      · have hpath : path.takeWhile (· ≠ '/') ++ '/' :: (found ++ (suffix ++ ending)) = path := by
          rw [← hgroup.split, ← hdrop, List.takeWhile_append_dropWhile]
        rcases atEnd_iff.1 hend with rfl | rfl
        · simpa [text, GithubReference.ending] using congrArg (host ++ ·) hpath
        · simpa [text, GithubReference.ending] using congrArg (host ++ ·) hpath

/-- The canonical reference to a repository. -/
def canonical (cases : CaseTable) (reference : GithubReference) : List Char :=
  githubPrefix ++ cases.lower reference.owner ++ '/' :: cases.lower reference.name

theorem canonicalText_text (cases : CaseTable) (reference : GithubReference) :
    canonicalText cases reference.text = reference.canonical cases := by
  rw [canonicalText, fullmatch_text, canonical]

theorem canonical_inj {cases : CaseTable} {left right : GithubReference} :
    left.canonical cases = right.canonical cases ↔
      cases.lower left.owner = cases.lower right.owner ∧
        cases.lower left.name = cases.lower right.name := by
  constructor
  · intro hsame
    rw [canonical, canonical, List.append_assoc, List.append_assoc,
      List.append_cancel_left_eq] at hsame
    have howner : cases.lower left.owner = cases.lower right.owner := by
      have htaken := congrArg (List.takeWhile (· ≠ '/')) hsame
      rwa [takeWhile_slash (cases.slash_notMem_lower left.owner_slash) (by simp),
        takeWhile_slash (cases.slash_notMem_lower right.owner_slash) (by simp)] at htaken
    rw [howner, List.append_cancel_left_eq] at hsame
    exact ⟨howner, (List.cons.inj hsame).2⟩
  · rintro ⟨howner, hname⟩
    rw [canonical, canonical, howner, hname]

theorem githubPrefix_matches : MatchesText githubPrefix githubPrefix :=
  List.forall₂_same.2 fun _ _ => Or.inl rfl

/-- The canonical reference as a reference of its own, when its name is not cut again. -/
def settledReference (cases : CaseTable) (reference : GithubReference)
    (hplain : ¬ EndsWithSuffix (cases.lower reference.name)) : GithubReference where
  host := githubPrefix
  owner := cases.lower reference.owner
  name := cases.lower reference.name
  suffix := []
  slash := false
  host_matches := githubPrefix_matches
  owner_ne := cases.lower_ne_nil reference.owner_ne
  owner_slash := cases.slash_notMem_lower reference.owner_slash
  name_ne := cases.lower_ne_nil reference.name_ne
  name_slash := cases.slash_notMem_lower reference.name_slash
  suffix_matches := Or.inl rfl
  plain := fun _ => hplain

/-- The canonical reference as a reference of its own, when a suffix is left to cut. -/
def cutReference (cases : CaseTable) (reference : GithubReference) (front suffix : List Char)
    (hname : cases.lower reference.name = front ++ suffix) (hfront : front ≠ [])
    (hsuffix : MatchesText gitSuffix suffix) : GithubReference where
  host := githubPrefix
  owner := cases.lower reference.owner
  name := front
  suffix := suffix
  slash := false
  host_matches := githubPrefix_matches
  owner_ne := cases.lower_ne_nil reference.owner_ne
  owner_slash := cases.slash_notMem_lower reference.owner_slash
  name_ne := hfront
  name_slash := fun hmem => cases.slash_notMem_lower reference.name_slash
    (hname ▸ List.mem_append_left suffix hmem)
  suffix_matches := Or.inr hsuffix
  plain := by
    rintro rfl
    exact absurd hsuffix.length (by decide)

theorem canonicalText_canonical (cases : CaseTable) (reference : GithubReference) :
    canonicalText cases (reference.canonical cases) = reference.canonical cases ↔
      ¬ EndsWithSuffix (cases.lower reference.name) := by
  by_cases hplain : EndsWithSuffix (cases.lower reference.name)
  · obtain ⟨front, suffix, hname, hfront, hsuffix⟩ := hplain
    have htext : (reference.cutReference cases front suffix hname hfront hsuffix).text =
        reference.canonical cases := by
      simp [text, ending, canonical, cutReference, hname]
    have hfixed : cases.lower front = front :=
      cases.lower_of_subset (hname ▸ List.subset_append_left front suffix)
    rw [← htext, canonicalText_text, htext, canonical_inj]
    refine iff_of_false ?_ (not_not_intro ⟨front, suffix, hname, hfront, hsuffix⟩)
    rintro ⟨-, hsame⟩
    have hlength := congrArg List.length (hfixed.symm.trans (hsame.trans hname))
    rw [List.length_append, hsuffix.length] at hlength
    exact absurd hlength (by simp [gitSuffix])
  · have htext : (reference.settledReference cases hplain).text = reference.canonical cases := by
      simp [text, ending, canonical, settledReference]
    rw [← htext, canonicalText_text, htext, canonical_inj]
    exact iff_of_true ⟨cases.lower_lower _, cases.lower_lower _⟩ hplain

end GithubReference

theorem canonicalText_idempotent_iff (cases : CaseTable) (value : List Char) :
    canonicalText cases (canonicalText cases value) = canonicalText cases value ↔
      ∀ reference : GithubReference, reference.text = value →
        ¬ EndsWithSuffix (cases.lower reference.name) := by
  rcases hmatch : fullmatch value with _ | ⟨owner, name⟩
  · have hsame : canonicalText cases value = value := by rw [canonicalText, hmatch]
    rw [hsame]
    refine iff_of_true hsame ?_
    rintro reference rfl
    exact absurd hmatch (by rw [reference.fullmatch_text]; exact Option.some_ne_none _)
  · obtain ⟨reference, rfl, rfl, rfl⟩ := GithubReference.of_fullmatch hmatch
    rw [reference.canonicalText_text, reference.canonicalText_canonical]
    constructor
    · intro hplain other htext
      have hsame := other.fullmatch_text
      rw [htext, hmatch] at hsame
      rwa [← (Prod.mk.inj (Option.some.inj hsame)).2]
    · exact fun hplain => hplain reference rfl

/-- A reference in text form. -/
def GithubReference.value (reference : GithubReference) : Option String :=
  some (String.ofList reference.text)

/-- A second pass changes nothing exactly when the value is no reference whose name ends in
a suffix before the suffix; and two references have one canonical form exactly when their
owners and names have the same lower case. -/
theorem canonicalizeContainerRef_canonical (cases : CaseTable) :
    (∀ value, canonicalizeContainerRef cases (canonicalizeContainerRef cases value) =
        canonicalizeContainerRef cases value ↔
      ∀ reference : GithubReference, value = reference.value →
        ¬ EndsWithSuffix (cases.lower reference.name)) ∧
    ∀ left right : GithubReference,
      canonicalizeContainerRef cases left.value = canonicalizeContainerRef cases right.value ↔
        cases.lower left.owner = cases.lower right.owner ∧
          cases.lower left.name = cases.lower right.name := by
  constructor
  · intro value
    rcases value with _ | value
    · simp [canonicalizeContainerRef, GithubReference.value]
    · have hpass := canonicalText_idempotent_iff cases value.toList
      simp only [canonicalizeContainerRef, Option.map_some, String.toList_ofList,
        Option.some.injEq, GithubReference.value, String.ofList_inj]
      rw [hpass]
      constructor
      · rintro hplain reference rfl
        exact hplain reference (String.toList_ofList).symm
      · intro hplain reference htext
        exact hplain reference (by rw [htext, String.ofList_toList])
  · intro left right
    simp only [canonicalizeContainerRef, GithubReference.value, Option.map_some,
      String.toList_ofList, Option.some.injEq, String.ofList_inj,
      GithubReference.canonicalText_text]
    exact GithubReference.canonical_inj

/-- One pass leaves a name with a suffix, which the next one cuts. -/
theorem second_pass_cuts :
    canonicalizeContainerRef latinCases
        (canonicalizeContainerRef latinCases (some "git:github.com/Owner/Repo.git.git")) ≠
      canonicalizeContainerRef latinCases (some "git:github.com/Owner/Repo.git.git") := by
  decide +kernel

end Pallium.Access
