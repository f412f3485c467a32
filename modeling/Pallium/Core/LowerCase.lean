import Mathlib

/-!
# Lower case

The lower case of a text over a table of the characters.  Every character is replaced
by its lower case, which may consist of several characters; the capital sigma alone
depends on what stands around it.  A text in lower case is a fixed point, and so are
its parts.
-/

namespace Pallium.Text

/-- The lower case of single characters.  What it consists of has no further lower
case, and it brings no separator that was not there. -/
structure CaseTable where
  lowerChar : Char → List Char
  cased : Char → Bool
  caseIgnorable : Char → Bool
  ne_nil : ∀ c, lowerChar c ≠ []
  settled : ∀ c, c ≠ 'Σ' → ∀ d ∈ lowerChar c, d ≠ 'Σ' ∧ lowerChar d = [d]
  sigma : lowerChar 'σ' = ['σ']
  finalSigma : lowerChar 'ς' = ['ς']
  slash : ∀ c, '/' ∈ lowerChar c → c = '/'

namespace CaseTable

variable (cases : CaseTable)

variable {before text : List Char} {d : Char}

/-- A capital sigma ends a word: a cased character stands before it and none behind it,
where characters that case ignores are skipped. -/
def inFinalContext (before after : List Char) : Bool :=
  (before.find? fun c => !cases.caseIgnorable c).any cases.cased &&
    !(after.find? fun c => !cases.caseIgnorable c).any cases.cased

/-- The lower case of a character between the text before it, in reverse, and after it. -/
def lowerAt (before : List Char) (c : Char) (after : List Char) : List Char :=
  if c = 'Σ' then [if cases.inFinalContext before after then 'ς' else 'σ']
  else cases.lowerChar c

def lowerFrom : List Char → List Char → List Char
  | _, [] => []
  | before, c :: after => cases.lowerAt before c after ++ lowerFrom (c :: before) after

/-- `str.lower`. -/
def lower (text : List Char) : List Char := cases.lowerFrom [] text

/-- A character that is its own lower case wherever it stands. -/
def Settled (c : Char) : Prop := c ≠ 'Σ' ∧ cases.lowerChar c = [c]

theorem settled_of_mem_lowerAt {after : List Char} {c : Char}
    (hmem : d ∈ cases.lowerAt before c after) : cases.Settled d := by
  rw [lowerAt] at hmem
  split at hmem
  · rw [List.mem_singleton] at hmem
    subst hmem
    split
    · exact ⟨by decide, cases.finalSigma⟩
    · exact ⟨by decide, cases.sigma⟩
  · rename_i hsigma
    exact cases.settled c hsigma d hmem

theorem settled_of_mem_lowerFrom (hmem : d ∈ cases.lowerFrom before text) : cases.Settled d := by
  induction text generalizing before with
  | nil => simp [lowerFrom] at hmem
  | cons c after ih =>
    rw [lowerFrom, List.mem_append] at hmem
    rcases hmem with hfirst | hrest
    · exact cases.settled_of_mem_lowerAt hfirst
    · exact ih hrest

theorem settled_of_mem_lower (hmem : d ∈ cases.lower text) : cases.Settled d :=
  cases.settled_of_mem_lowerFrom hmem

theorem lowerFrom_of_settled (hsettled : ∀ c ∈ text, cases.Settled c) :
    cases.lowerFrom before text = text := by
  induction text generalizing before with
  | nil => rfl
  | cons c after ih =>
    obtain ⟨hsigma, hlower⟩ := hsettled c List.mem_cons_self
    rw [lowerFrom, lowerAt, if_neg hsigma, hlower,
      ih (List.forall_mem_cons.mp hsettled).2]
    rfl

theorem lower_of_subset {part : List Char} (hpart : part ⊆ cases.lower text) :
    cases.lower part = part :=
  cases.lowerFrom_of_settled fun _ hmem => cases.settled_of_mem_lower (hpart hmem)

@[simp]
theorem lower_lower (text : List Char) : cases.lower (cases.lower text) = cases.lower text :=
  cases.lower_of_subset (List.Subset.refl _)

theorem lower_ne_nil (htext : text ≠ []) : cases.lower text ≠ [] := by
  rcases text with _ | ⟨c, after⟩
  · exact absurd rfl htext
  · intro hnil
    have hfirst : cases.lowerAt [] c after = [] := (List.append_eq_nil_iff.1 hnil).1
    rw [lowerAt] at hfirst
    split at hfirst
    · exact List.cons_ne_nil _ _ hfirst
    · exact cases.ne_nil c hfirst

theorem slash_mem_of_mem_lowerFrom (hmem : '/' ∈ cases.lowerFrom before text) : '/' ∈ text := by
  induction text generalizing before with
  | nil => simp [lowerFrom] at hmem
  | cons c after ih =>
    rw [lowerFrom, List.mem_append] at hmem
    rcases hmem with hfirst | hrest
    · rw [lowerAt] at hfirst
      split at hfirst
      · rw [List.mem_singleton] at hfirst
        split at hfirst <;> exact absurd hfirst (by decide)
      · exact List.mem_cons.2 (Or.inl (cases.slash c hfirst).symm)
    · exact List.mem_cons_of_mem _ (ih hrest)

theorem slash_notMem_lower (htext : '/' ∉ text) : '/' ∉ cases.lower text :=
  fun hmem => htext (cases.slash_mem_of_mem_lowerFrom hmem)

end CaseTable

def latinLetters : List (Char × Char) :=
  "ABCDEFGHIJKLMNOPQRSTUVWXYZ".toList.zip "abcdefghijklmnopqrstuvwxyz".toList

def latinLower (c : Char) : Char := (latinLetters.lookup c).getD c

theorem latinLower_cases (c : Char) :
    latinLower c = c ∨ (c, latinLower c) ∈ latinLetters := by
  rw [latinLower]
  rcases hfound : latinLetters.lookup c with _ | d
  · exact Or.inl rfl
  · obtain ⟨front, back, hsplit, _⟩ := List.lookup_eq_some_iff.1 hfound
    exact Or.inr (by simp [hsplit])

theorem latinLetters_settled : ∀ pair ∈ latinLetters,
    pair.2 ≠ '/' ∧ pair.2 ≠ 'Σ' ∧ latinLower pair.2 = pair.2 := by decide +kernel

/-- The case of the Latin letters alone. -/
def latinCases : CaseTable where
  lowerChar c := [latinLower c]
  cased := Char.isAlpha
  caseIgnorable _ := false
  ne_nil _ := List.cons_ne_nil _ _
  settled := by
    intro c hsigma d hmem
    rw [List.mem_singleton] at hmem
    subst hmem
    rcases latinLower_cases c with hsame | hletter
    · exact ⟨by rwa [hsame], by rw [hsame]; exact congrArg (fun c => [c]) hsame⟩
    · obtain ⟨_, hne, hfixed⟩ := latinLetters_settled _ hletter
      exact ⟨hne, congrArg (fun c => [c]) hfixed⟩
  sigma := by decide +kernel
  finalSigma := by decide +kernel
  slash := by
    intro c hmem
    rw [List.mem_singleton] at hmem
    rcases latinLower_cases c with hsame | hletter
    · exact (hmem.trans hsame).symm
    · exact absurd hmem.symm (latinLetters_settled _ hletter).1

end Pallium.Text
