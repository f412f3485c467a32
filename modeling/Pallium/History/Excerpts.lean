import Pallium.Core.Text

/-!
# Excerpts around a query

An excerpt is a part of the normalised text between marks for what is left out.  The
window is placed around the first match of a query token, moved to stay inside the text,
and then cut at its end to make room for the marks.  A window that ends with the text is
cut without a mark, and the cut may take the match with it.
-/

namespace Pallium.History

open Text

/-- Character tables of the host language. -/
structure Host where
  casefold : Char → List Char

/-- `hay.find(needle)`, if it is found. -/
def findText (needle : List Char) : List Char → Option ℕ
  | [] => if needle = [] then some 0 else none
  | c :: rest =>
    if needle.isPrefixOf (c :: rest) then some 0 else (findText needle rest).map (· + 1)

/-- The place of the character at which the folded text reaches a position. -/
def foldedIndex (casefold : Char → List Char) (target : ℕ) : ℕ → List Char → ℕ
  | _, [] => 0
  | offset, c :: rest =>
    if target ≤ offset then 0
    else foldedIndex casefold target (offset + (casefold c).length) rest + 1

/-- `text.rstrip()`. -/
def rstrip (text : List Char) : List Char := (text.reverse.dropWhile isSpace).reverse

def ellipsis (present : Bool) : List Char := if present then ['.', '.', '.'] else []

def buildExcerpt (host : Host) (text : String) (maxLength : ℕ) (query : String) : String :=
  let normalized := (" ".intercalate (splitWords text)).toList
  if normalized.length ≤ maxLength then String.ofList normalized
  else
    let folded := normalized.flatMap host.casefold
    let positions := (splitWords (" ".intercalate (splitWords query))).filterMap fun token =>
      findText (token.toList.flatMap host.casefold) folded
    match if query = "" then none else positions.min? with
    | some foldedPos =>
      let pos := foldedIndex host.casefold foldedPos 0 normalized
      let left := min (pos - maxLength / 3) (normalized.length - maxLength)
      let right := min normalized.length (left + maxLength)
      let front := ellipsis (left ≠ 0)
      let back := ellipsis (right < normalized.length)
      let body := (normalized.drop left).take (right - left)
      let room := maxLength - front.length - back.length
      String.ofList (front ++ body.take room ++ back)
    | none => String.ofList (rstrip (normalized.take (maxLength - 3)) ++ ellipsis true)

/-- The white space of the text is reduced to single blanks. -/
def normalizedText (text : String) : List Char := (" ".intercalate (splitWords text)).toList

def queryTokens (query : String) : List String := splitWords (" ".intercalate (splitWords query))

/-- A part of the normalised text, with the marks around it. -/
structure ExcerptPart where
  front : Bool
  start : ℕ
  stop : ℕ
  back : Bool
  deriving DecidableEq, Repr

namespace ExcerptPart

def render (part : ExcerptPart) (normalized : List Char) : List Char :=
  ellipsis part.front ++ (normalized.drop part.start).take (part.stop - part.start) ++
    ellipsis part.back

/-- The marks stand exactly where text of the given length was left out. -/
structure Marked (part : ExcerptPart) (length : ℕ) : Prop where
  ordered : part.start ≤ part.stop
  inside : part.stop ≤ length
  front : part.front ↔ 0 < part.start
  back : part.back ↔ part.stop < length

def Shows (part : ExcerptPart) (index : ℕ) : Prop := part.start ≤ index ∧ index < part.stop

end ExcerptPart

section Matching

variable {host : Host}

variable {position : ℕ}

/-- A token of the query stands at a position of the folded text. -/
def MatchAt (host : Host) (normalized : List Char) (query : String) (position : ℕ) : Prop :=
  ∃ token ∈ queryTokens query,
    token.toList.flatMap host.casefold <+: (normalized.flatMap host.casefold).drop position

/-- The first position at which a token stands. -/
def EarliestMatch (host : Host) (normalized : List Char) (query : String) (position : ℕ) : Prop :=
  MatchAt host normalized query position ∧
    ∀ other, MatchAt host normalized query other → position ≤ other

/-- The character whose folded text contains a position. -/
def startIndex (casefold : Char → List Char) : ℕ → List Char → ℕ
  | _, [] => 0
  | position, c :: rest =>
    if position < (casefold c).length then 0
    else startIndex casefold (position - (casefold c).length) rest + 1

/-- The position is the first one of its character. -/
def aligned (casefold : Char → List Char) : ℕ → List Char → Bool
  | position, [] => position = 0
  | position, c :: rest =>
    if position < (casefold c).length then position = 0
    else aligned casefold (position - (casefold c).length) rest

/-- The first character that begins at a position or behind it. -/
def reachedIndex (casefold : Char → List Char) (position : ℕ) (text : List Char) : ℕ :=
  startIndex casefold position text + if aligned casefold position text then 0 else 1

theorem foldedIndex_eq_reachedIndex (hfold : ∀ c, host.casefold c ≠ []) (offset position : ℕ)
    (text : List Char) (hinside : position < (text.flatMap host.casefold).length) :
    foldedIndex host.casefold (offset + position) offset text =
      reachedIndex host.casefold position text := by
  induction text generalizing offset position with
  | nil => cases hinside
  | cons c rest ih =>
    have hlength : 0 < (host.casefold c).length := List.length_pos_iff.mpr (hfold c)
    rw [List.flatMap_cons, List.length_append] at hinside
    rw [foldedIndex, reachedIndex, startIndex, aligned]
    by_cases hzero : position = 0
    · subst hzero
      rw [Nat.add_zero, if_pos (Nat.le_refl _), if_pos hlength, if_pos hlength, if_pos (decide_eq_true rfl)]
    · rw [if_neg (by omega)]
      by_cases hinner : position < (host.casefold c).length
      · rw [if_pos hinner, if_pos hinner, if_neg (by simpa using hzero)]
        cases rest with
        | nil => rfl
        | cons d rest => rw [foldedIndex, if_pos (by omega)]
      · have hoffset : offset + position =
            offset + (host.casefold c).length + (position - (host.casefold c).length) := by omega
        rw [if_neg hinner, if_neg hinner, hoffset, ih _ _ (by omega), reachedIndex]
        exact Nat.add_right_comm _ _ _

theorem startIndex_lt {text : List Char} (hinside : position < (text.flatMap host.casefold).length) :
    startIndex host.casefold position text < text.length := by
  induction text generalizing position with
  | nil => cases hinside
  | cons c rest ih =>
    rw [List.flatMap_cons, List.length_append] at hinside
    rw [startIndex, List.length_cons]
    split
    · exact Nat.succ_pos _
    · have hrest := @ih (position - (host.casefold c).length) (by omega)
      omega

theorem isPrefixOf_of_findText {needle hay : List Char}
    (hfound : findText needle hay = some position) :
    needle <+: hay.drop position ∧ ∀ other, needle <+: hay.drop other → position ≤ other := by
  induction hay generalizing position with
  | nil =>
    rw [findText] at hfound
    split_ifs at hfound with hempty
    cases hfound
    exact ⟨hempty ▸ List.nil_prefix, fun other _ => Nat.zero_le other⟩
  | cons c rest ih =>
    rw [findText] at hfound
    split_ifs at hfound with hhere
    · cases hfound
      exact ⟨List.isPrefixOf_iff_prefix.mp hhere, fun other _ => Nat.zero_le other⟩
    · obtain ⟨behind, hbehind, rfl⟩ := Option.map_eq_some_iff.mp hfound
      obtain ⟨hoccurs, hfirst⟩ := ih hbehind
      refine ⟨hoccurs, fun other hother => ?_⟩
      cases other with
      | zero => exact absurd (List.isPrefixOf_iff_prefix.mpr hother) hhere
      | succ other => exact Nat.succ_le_succ (hfirst other hother)

theorem exists_findText {needle hay : List Char} (hoccurs : needle <+: hay.drop position) :
    ∃ found, findText needle hay = some found := by
  induction hay generalizing position with
  | nil =>
    rw [List.drop_nil] at hoccurs
    exact ⟨0, by rw [findText, if_pos (List.prefix_nil.mp hoccurs)]⟩
  | cons c rest ih =>
    rw [findText]
    split_ifs with hhere
    · exact ⟨0, rfl⟩
    · cases position with
      | zero => exact absurd (List.isPrefixOf_iff_prefix.mpr hoccurs) hhere
      | succ position =>
        obtain ⟨found, hfound⟩ := ih hoccurs
        exact ⟨found + 1, by rw [hfound, Option.map_some]⟩

/-- `min(positions)`, if there are positions. -/
def matchPosition (host : Host) (normalized : List Char) (query : String) : Option ℕ :=
  ((queryTokens query).filterMap fun token =>
    findText (token.toList.flatMap host.casefold) (normalized.flatMap host.casefold)).min?

theorem matchPosition_eq_some_iff {normalized : List Char} {query : String} :
    matchPosition host normalized query = some position ↔
      EarliestMatch host normalized query position := by
  have hposition : ∀ found, MatchAt host normalized query found → ∃ first ∈
      (queryTokens query).filterMap fun token =>
        findText (token.toList.flatMap host.casefold) (normalized.flatMap host.casefold),
      first ≤ found := by
    rintro found ⟨token, htoken, hoccurs⟩
    obtain ⟨first, hfirst⟩ := exists_findText hoccurs
    exact ⟨first, List.mem_filterMap.mpr ⟨token, htoken, hfirst⟩,
      (isPrefixOf_of_findText hfirst).2 found hoccurs⟩
  have hmatch : ∀ found ∈ (queryTokens query).filterMap fun token =>
        findText (token.toList.flatMap host.casefold) (normalized.flatMap host.casefold),
      MatchAt host normalized query found := by
    intro found hfound
    obtain ⟨token, htoken, hfirst⟩ := List.mem_filterMap.mp hfound
    exact ⟨token, htoken, (isPrefixOf_of_findText hfirst).1⟩
  rw [matchPosition, List.min?_eq_some_iff]
  constructor
  · rintro ⟨hmem, hleast⟩
    refine ⟨hmatch position hmem, fun other hother => ?_⟩
    obtain ⟨first, hfirst, hle⟩ := hposition other hother
    exact (hleast first hfirst).trans hle
  · rintro ⟨hoccurs, hleast⟩
    obtain ⟨first, hfirst, hle⟩ := hposition position hoccurs
    have hsame : first = position := Nat.le_antisymm hle (hleast first (hmatch first hfirst))
    exact ⟨hsame ▸ hfirst, fun other hother => hleast other (hmatch other hother)⟩

theorem ne_nil_of_mem_wordsFrom {word text : List Char} {found : String}
    (hfound : found ∈ wordsFrom word text) : found.toList ≠ [] := by
  have hreverse : ∀ word : List Char, word ≠ [] → (String.ofList word.reverse).toList ≠ [] := by
    intro word hword
    rw [String.toList_ofList]
    exact List.reverse_ne_nil_iff.mpr hword
  induction text generalizing word with
  | nil =>
    rw [wordsFrom] at hfound
    split_ifs at hfound with hword
    · cases hfound
    · rw [List.mem_singleton.mp hfound]
      exact hreverse word hword
  | cons c rest ih =>
    rw [wordsFrom] at hfound
    split_ifs at hfound with hspace hword
    · exact ih hfound
    · rcases List.mem_cons.mp hfound with rfl | hlater
      · exact hreverse word hword
      · exact ih hlater
    · exact ih hfound

theorem MatchAt.lt_length (hfold : ∀ c, host.casefold c ≠ []) {normalized : List Char}
    {query : String} (hmatch : MatchAt host normalized query position) :
    position < (normalized.flatMap host.casefold).length := by
  obtain ⟨token, htoken, hoccurs⟩ := hmatch
  have htext := ne_nil_of_mem_wordsFrom htoken
  have hfolded : 0 < (token.toList.flatMap host.casefold).length := by
    cases hchars : token.toList with
    | nil => exact absurd hchars htext
    | cons c rest =>
      rw [List.flatMap_cons, List.length_append]
      exact Nat.add_pos_left (List.length_pos_iff.mpr (hfold c)) _
  have hlength := hoccurs.length_le
  rw [List.length_drop] at hlength
  omega

end Matching

section Windows

variable {host : Host}

variable {length maxLength index : ℕ}

/-- The window around a character, without the end that makes room for the marks. -/
def windowPart (length maxLength index : ℕ) : ExcerptPart :=
  let left := min (index - maxLength / 3) (length - maxLength)
  let right := min length (left + maxLength)
  let front := decide (left ≠ 0)
  let back := decide (right < length)
  let room := maxLength - (ellipsis front).length - (ellipsis back).length
  { front := front
    start := left
    stop := left + min room (right - left)
    back := back }

/-- The part of the text that is shown. -/
def excerptPart (host : Host) (normalized : List Char) (maxLength : ℕ) (query : String) :
    ExcerptPart :=
  if normalized.length ≤ maxLength then ⟨false, 0, normalized.length, false⟩
  else
    match if query = "" then none else matchPosition host normalized query with
    | some position =>
      windowPart normalized.length maxLength (foldedIndex host.casefold position 0 normalized)
    | none => ⟨false, 0, (rstrip (normalized.take (maxLength - 3))).length, true⟩

theorem rstrip_isPrefixOf (text : List Char) : rstrip text <+: text := by
  have hsuffix := List.dropWhile_suffix isSpace (l := text.reverse)
  rw [rstrip, ← List.reverse_suffix, List.reverse_reverse]
  exact hsuffix

theorem take_length_rstrip (text : List Char) (count : ℕ) :
    text.take (rstrip (text.take count)).length = rstrip (text.take count) :=
  (List.prefix_iff_eq_take.mp ((rstrip_isPrefixOf _).trans (List.take_prefix count text))).symm

theorem toList_buildExcerpt (host : Host) (text query : String) (maxLength : ℕ) :
    (buildExcerpt host text maxLength query).toList =
      (excerptPart host (normalizedText text) maxLength query).render (normalizedText text) := by
  have hfallback : rstrip ((normalizedText text).take (maxLength - 3)) ++ ellipsis true =
      (ExcerptPart.mk false 0 (rstrip ((normalizedText text).take (maxLength - 3))).length
        true).render (normalizedText text) := by
    simp only [ExcerptPart.render, ellipsis, List.drop_zero, Nat.sub_zero, take_length_rstrip]
    rfl
  by_cases hshort : (normalizedText text).length ≤ maxLength
  · have hbuild : buildExcerpt host text maxLength query = String.ofList (normalizedText text) :=
      if_pos hshort
    rw [hbuild, String.toList_ofList, excerptPart, if_pos hshort, ExcerptPart.render,
      List.drop_zero, Nat.sub_zero, List.take_length]
    exact (List.append_nil _).symm
  · have hbuild : buildExcerpt host text maxLength query =
        match if query = "" then none else matchPosition host (normalizedText text) query with
        | some position =>
          String.ofList
            (let pos := foldedIndex host.casefold position 0 (normalizedText text)
            let left := min (pos - maxLength / 3) ((normalizedText text).length - maxLength)
            let right := min (normalizedText text).length (left + maxLength)
            let front := ellipsis (left ≠ 0)
            let back := ellipsis (right < (normalizedText text).length)
            let body := ((normalizedText text).drop left).take (right - left)
            front ++ body.take (maxLength - front.length - back.length) ++ back)
        | none =>
          String.ofList (rstrip ((normalizedText text).take (maxLength - 3)) ++ ellipsis true) :=
      if_neg hshort
    rw [hbuild, excerptPart, if_neg hshort]
    cases if query = "" then none else matchPosition host (normalizedText text) query with
    | none =>
      rw [String.toList_ofList]
      exact hfallback
    | some position =>
      rw [String.toList_ofList]
      simp only [ExcerptPart.render, windowPart, Nat.add_sub_cancel_left, List.take_take]

theorem length_ellipsis (present : Bool) :
    (ellipsis present).length = if present then 3 else 0 := by
  cases present <;> rfl

section

variable (hlong : maxLength < length) (hmax : 9 ≤ maxLength)
include hlong hmax

theorem windowPart_front
    (hfront : index ≤ maxLength / 3) :
    windowPart length maxLength index = ⟨false, 0, maxLength - 3, true⟩ := by
  have hleft : min (index - maxLength / 3) (length - maxLength) = 0 := by omega
  have hright : min length maxLength = maxLength := by omega
  have hroom : min (maxLength - 0 - 3) (maxLength - 0) = maxLength - 3 := by omega
  simp only [windowPart, hleft, ne_eq, not_true_eq_false, decide_false, hlong, decide_true,
    length_ellipsis, Bool.false_eq_true, if_true, if_false, hroom, Nat.zero_add, hright]

theorem windowPart_inside
    (hfront : maxLength / 3 < index) (hback : index + maxLength < length + maxLength / 3) :
    windowPart length maxLength index =
      ⟨true, index - maxLength / 3, index - maxLength / 3 + (maxLength - 6), true⟩ := by
  have hleft : min (index - maxLength / 3) (length - maxLength) = index - maxLength / 3 := by omega
  have hne : index - maxLength / 3 ≠ 0 := by omega
  have hright : min length (index - maxLength / 3 + maxLength) =
      index - maxLength / 3 + maxLength := by omega
  have hmore : index - maxLength / 3 + maxLength < length := by omega
  have hroom : min (maxLength - 3 - 3)
      (index - maxLength / 3 + maxLength - (index - maxLength / 3)) = maxLength - 6 := by omega
  simp only [windowPart, hleft, hright, hne, hmore, ne_eq, not_false_eq_true, decide_true,
    length_ellipsis, if_true, hroom]

theorem windowPart_end
    (hback : length + maxLength / 3 ≤ index + maxLength) :
    windowPart length maxLength index = ⟨true, length - maxLength, length - 3, false⟩ := by
  have hleft : min (index - maxLength / 3) (length - maxLength) = length - maxLength := by omega
  have hne : length - maxLength ≠ 0 := by omega
  have hright : min length (length - maxLength + maxLength) = length := by omega
  have hroom : min (maxLength - 3 - 0) (length - (length - maxLength)) = maxLength - 3 := by omega
  have hstop : length - maxLength + (maxLength - 3) = length - 3 := by omega
  simp only [windowPart, hleft, hright, hne, ne_eq, not_false_eq_true, decide_true, Nat.lt_irrefl,
    decide_false, length_ellipsis, Bool.false_eq_true, if_true, if_false, hroom, hstop]

/-- The match lies in the front of the text, or far enough from its end.  With nine
characters the window inside the text has no room for a match at a character's beginning. -/
def Roomy (length maxLength start reached : ℕ) : Prop :=
  reached ≤ maxLength / 3 ∨
    reached + maxLength < length + maxLength / 3 ∧ (10 ≤ maxLength ∨ start ≠ reached)

instance (length maxLength start reached : ℕ) : Decidable (Roomy length maxLength start reached) :=
  inferInstanceAs (Decidable (_ ∨ _ ∧ (_ ∨ _)))

theorem windowPart_shows_iff {start reached : ℕ}
    (hstart : start ≤ reached) (hnext : reached ≤ start + 1) :
    ((windowPart length maxLength reached).Marked length ∧
      (windowPart length maxLength reached).Shows start) ↔
        Roomy length maxLength start reached := by
  by_cases hfront : reached ≤ maxLength / 3
  · rw [windowPart_front hlong hmax hfront]
    refine iff_of_true ⟨⟨Nat.zero_le _, ?_, ?_, ?_⟩, Nat.zero_le _, ?_⟩ (.inl hfront)
    · change maxLength - 3 ≤ length
      omega
    · exact ⟨fun hmark => (nomatch hmark), fun hpos => absurd hpos (Nat.lt_irrefl 0)⟩
    · exact iff_of_true rfl (show maxLength - 3 < length by omega)
    · change start < maxLength - 3
      omega
  · by_cases hback : reached + maxLength < length + maxLength / 3
    · rw [windowPart_inside hlong hmax (Nat.lt_of_not_le hfront) hback]
      have hshows : start < reached - maxLength / 3 + (maxLength - 6) ↔
          10 ≤ maxLength ∨ start ≠ reached := by omega
      constructor
      · rintro ⟨-, -, hinside⟩
        exact .inr ⟨hback, hshows.mp hinside⟩
      · rintro (hle | ⟨-, hroom⟩)
        · exact absurd hle hfront
        · refine ⟨⟨Nat.le_add_right _ _, ?_, ?_, ?_⟩, ?_, hshows.mpr hroom⟩
          · change reached - maxLength / 3 + (maxLength - 6) ≤ length
            omega
          · exact iff_of_true rfl (show 0 < reached - maxLength / 3 by omega)
          · exact iff_of_true rfl
              (show reached - maxLength / 3 + (maxLength - 6) < length by omega)
          · change reached - maxLength / 3 ≤ start
            omega
    · rw [windowPart_end hlong hmax (Nat.le_of_not_lt hback)]
      refine iff_of_false ?_ ?_
      · rintro ⟨hmarked, -⟩
        have hmark := hmarked.back.mpr (show length - 3 < length by omega)
        cases hmark
      · rintro (hle | ⟨hless, -⟩)
        · exact hfront hle
        · exact hback hless

end

theorem length_render_le (part : ExcerptPart) (normalized : List Char) :
    (part.render normalized).length ≤ (ellipsis part.front).length + (part.stop - part.start) +
      (ellipsis part.back).length := by
  rw [ExcerptPart.render, List.length_append, List.length_append, List.length_take]
  omega

theorem length_windowPart (hmax : 9 ≤ maxLength) :
    (ellipsis (windowPart length maxLength index).front).length +
        ((windowPart length maxLength index).stop - (windowPart length maxLength index).start) +
        (ellipsis (windowPart length maxLength index).back).length ≤ maxLength := by
  have hmark : ∀ present, (ellipsis present).length ≤ 3 := by
    intro present
    rw [length_ellipsis]
    split <;> omega
  have hfront := hmark (windowPart length maxLength index).front
  have hback := hmark (windowPart length maxLength index).back
  have hroom : (windowPart length maxLength index).stop -
      (windowPart length maxLength index).start ≤ maxLength -
        (ellipsis (windowPart length maxLength index).front).length -
        (ellipsis (windowPart length maxLength index).back).length := by
    simp only [windowPart, Nat.add_sub_cancel_left]
    exact Nat.min_le_left _ _
  omega

end Windows

section Excerpts

variable {host : Host}

variable {normalized : List Char} {query : String} {position maxLength : ℕ}

theorem EarliestMatch.unique {other : ℕ} (hfirst : EarliestMatch host normalized query position)
    (hsecond : EarliestMatch host normalized query other) : position = other :=
  Nat.le_antisymm (hfirst.2 other hsecond.1) (hsecond.2 position hfirst.1)

theorem not_matchAt_empty :
    ¬ MatchAt host normalized "" position := by
  rintro ⟨token, htoken, -⟩
  cases htoken

theorem marked_fallback (hlong : maxLength < normalized.length) (hmax : 9 ≤ maxLength) :
    (ExcerptPart.mk false 0 (rstrip (normalized.take (maxLength - 3))).length true).Marked
      normalized.length := by
  have hlength := (rstrip_isPrefixOf (normalized.take (maxLength - 3))).length_le
  rw [List.length_take] at hlength
  refine ⟨Nat.zero_le _, ?_, ?_, ?_⟩
  · change (rstrip (normalized.take (maxLength - 3))).length ≤ normalized.length
    omega
  · exact ⟨fun hmark => (nomatch hmark), fun hpos => absurd hpos (Nat.lt_irrefl 0)⟩
  · exact iff_of_true rfl
      (show (rstrip (normalized.take (maxLength - 3))).length < normalized.length by omega)

theorem excerptPart_eq_window (hlong : maxLength < normalized.length)
    (hmatch : EarliestMatch host normalized query position) (hfold : ∀ c, host.casefold c ≠ []) :
    excerptPart host normalized maxLength query =
      windowPart normalized.length maxLength (reachedIndex host.casefold position normalized) := by
  have hquery : query ≠ "" := fun hempty => not_matchAt_empty (hempty ▸ hmatch.1)
  have hreached := foldedIndex_eq_reachedIndex hfold 0 position normalized
    (hmatch.1.lt_length hfold)
  rw [Nat.zero_add] at hreached
  rw [excerptPart, if_neg (Nat.not_le.mpr hlong), if_neg hquery,
    matchPosition_eq_some_iff.mpr hmatch]
  exact congrArg (windowPart normalized.length maxLength) hreached

theorem excerptPart_eq_fallback (hlong : maxLength < normalized.length)
    (hnone : ∀ position, ¬ EarliestMatch host normalized query position) :
    excerptPart host normalized maxLength query =
      ⟨false, 0, (rstrip (normalized.take (maxLength - 3))).length, true⟩ := by
  have hposition : (if query = "" then none else matchPosition host normalized query) = none := by
    split
    · rfl
    · refine Option.eq_none_iff_forall_ne_some.mpr fun position hposition => ?_
      exact hnone position (matchPosition_eq_some_iff.mp hposition)
  rw [excerptPart, if_neg (Nat.not_le.mpr hlong), hposition]

theorem length_buildExcerpt (hfold : ∀ c, host.casefold c ≠ []) (text query : String)
    (hmax : 9 ≤ maxLength) :
    (buildExcerpt host text maxLength query).length ≤ maxLength := by
  rw [← String.length_toList, toList_buildExcerpt]
  refine (length_render_le _ _).trans ?_
  by_cases hshort : (normalizedText text).length ≤ maxLength
  · have hpart : excerptPart host (normalizedText text) maxLength query =
        ⟨false, 0, (normalizedText text).length, false⟩ := if_pos hshort
    rw [hpart]
    simpa [length_ellipsis] using hshort
  · have hlong := Nat.lt_of_not_le hshort
    by_cases hmatch : ∃ position, EarliestMatch host (normalizedText text) query position
    · obtain ⟨position, hmatch⟩ := hmatch
      rw [excerptPart_eq_window hlong hmatch hfold]
      exact length_windowPart hmax
    · have hlength := (rstrip_isPrefixOf ((normalizedText text).take (maxLength - 3))).length_le
      rw [List.length_take] at hlength
      rw [excerptPart_eq_fallback hlong (not_exists.mp hmatch), length_ellipsis, length_ellipsis]
      change 0 + ((rstrip ((normalizedText text).take (maxLength - 3))).length - 0) + 3 ≤ maxLength
      omega

/-- An excerpt is a part of the normalised text within the length, and it is marked where
text was left out and shows the earliest match exactly if the whole text fits, nothing
matches, or the match has room in front of the end of the text. -/
theorem buildExcerpt_shows_iff (host : Host) (hfold : ∀ c, host.casefold c ≠ [])
    (text query : String) (maxLength : ℕ) (hmax : 9 ≤ maxLength) :
    (buildExcerpt host text maxLength query).toList =
        (excerptPart host (normalizedText text) maxLength query).render (normalizedText text) ∧
      (buildExcerpt host text maxLength query).length ≤ maxLength ∧
      (((excerptPart host (normalizedText text) maxLength query).Marked
            (normalizedText text).length ∧
          ∀ position, EarliestMatch host (normalizedText text) query position →
            (excerptPart host (normalizedText text) maxLength query).Shows
              (startIndex host.casefold position (normalizedText text))) ↔
        (normalizedText text).length ≤ maxLength ∨
          ∀ position, EarliestMatch host (normalizedText text) query position →
            Roomy (normalizedText text).length maxLength
              (startIndex host.casefold position (normalizedText text))
              (reachedIndex host.casefold position (normalizedText text))) := by
  refine ⟨toList_buildExcerpt host text query maxLength,
    length_buildExcerpt hfold text query hmax, ?_⟩
  generalize normalizedText text = normalized
  by_cases hshort : normalized.length ≤ maxLength
  · have hpart : excerptPart host normalized maxLength query =
        ⟨false, 0, normalized.length, false⟩ := if_pos hshort
    rw [hpart]
    refine iff_of_true ⟨⟨Nat.zero_le _, Nat.le_refl _, ?_, ?_⟩, fun position hmatch => ?_⟩
      (.inl hshort)
    · exact ⟨fun hmark => (nomatch hmark), fun hpos => absurd hpos (Nat.lt_irrefl 0)⟩
    · exact ⟨fun hmark => (nomatch hmark), fun hless => absurd hless (Nat.lt_irrefl _)⟩
    · exact ⟨Nat.zero_le _, startIndex_lt (hmatch.1.lt_length hfold)⟩
  · have hlong := Nat.lt_of_not_le hshort
    by_cases hmatch : ∃ position, EarliestMatch host normalized query position
    · obtain ⟨position, hmatch⟩ := hmatch
      have hreached : reachedIndex host.casefold position normalized ≤
          startIndex host.casefold position normalized + 1 := by
        rw [reachedIndex]
        split <;> omega
      have hwindow := windowPart_shows_iff hlong hmax
        (Nat.le_add_right (startIndex host.casefold position normalized) _) hreached
      rw [excerptPart_eq_window hlong hmatch hfold]
      constructor
      · rintro ⟨hmarked, hshows⟩
        refine .inr fun other hother => ?_
        rw [← hmatch.unique hother]
        exact hwindow.mp ⟨hmarked, hshows position hmatch⟩
      · rintro (hle | hroomy)
        · exact absurd hle hshort
        · obtain ⟨hmarked, hshows⟩ := hwindow.mpr (hroomy position hmatch)
          refine ⟨hmarked, fun other hother => ?_⟩
          rw [← hmatch.unique hother]
          exact hshows
    · have hnone := not_exists.mp hmatch
      rw [excerptPart_eq_fallback hlong hnone]
      exact iff_of_true ⟨marked_fallback hlong hmax, fun position hposition =>
        absurd hposition (hnone position)⟩ (.inr fun position hposition =>
          absurd hposition (hnone position))

section Example

def alphabet : String := "abcdefghijklmnopqrstuvwxyz"

def plainHost : Host where
  casefold c := [c]

theorem buildExcerpt_shows_iff_example :
    (excerptPart plainHost (normalizedText alphabet) 12 "m").Marked
          (normalizedText alphabet).length ∧
        ∀ position, EarliestMatch plainHost (normalizedText alphabet) "m" position →
          (excerptPart plainHost (normalizedText alphabet) 12 "m").Shows
            (startIndex plainHost.casefold position (normalizedText alphabet)) := by
  obtain ⟨-, -, hshows⟩ := buildExcerpt_shows_iff plainHost (fun c => List.cons_ne_nil c [])
    alphabet "m" 12 (by decide)
  refine hshows.mpr (.inr fun position hmatch => ?_)
  have hposition : matchPosition plainHost (normalizedText alphabet) "m" = some 12 := by decide
  obtain rfl := hmatch.unique (matchPosition_eq_some_iff.mp hposition)
  decide

/-- The last character is looked for, and it is cut off without a mark. -/
theorem end_cut_without_mark :
    ¬ ∃ start ≤ 26, ∃ stop ≤ 26, start ≤ stop ∧
      (buildExcerpt plainHost alphabet 12 "z").toList =
        ellipsis (0 < start) ++ (alphabet.toList.drop start).take (stop - start) ++
          ellipsis (stop < 26) := by
  decide +kernel

end Example

end Excerpts

end Pallium.History
