import Pallium.History.Excerpts

/-!
# The block in AGENTS.md

The Codex setup keeps its guidance between two markers of a file whose other text belongs
to the user.  Every setup and every removal finds the first occurrence of each marker on its
own and cuts out what lies between them.  As long as the user's text has no marker outside
one block, a run moves nothing but newlines beside the block.  A stray start marker is paired
with the end of the installed block, and the next setup cuts the text between them.
-/

namespace Pallium.Integration

open History (findText)

def startMarker : List Char := "<!-- pallium:start -->".toList

def endMarker : List Char := "<!-- pallium:end -->".toList

def markers : List (List Char) := [startMarker, endMarker]

/-- `str.replace(old, new, 1)`. -/
def replaceFirst (old new text : List Char) : List Char :=
  match findText old text with
  | some position => text.take position ++ new ++ text.drop (position + old.length)
  | none => text

/-- The file with the block of the repository: its text between the markers, and the
newlines at its end. -/
structure Template where
  body : List Char
  ending : List Char
  oneEnd : ¬ endMarker <:+: body
  newlines : ∀ c ∈ ending, c = '\n'

/-- `_get_agents_md_block`. -/
def Template.text (template : Template) : List Char :=
  startMarker ++ '\n' :: template.body ++ endMarker ++ template.ending

/-- The guidance strengths behind their aliases. -/
inductive Strength where
  | base
  | strong
  deriving DecidableEq

def Strength.armMarker : Strength → List Char
  | .base => "<!-- pallium:guidance-strength=base -->".toList
  | .strong => "<!-- pallium:guidance-strength=strong -->".toList

def strongDirective : List Char :=
  '\n' :: "## Resuming prior work\n\n".toList ++
    "When you resume or continue prior work on this task, call\n".toList ++
    "`pallium_search_history_by_work_ref` first when a valid structural work ref\n".toList ++
    "is known; otherwise call `pallium_search_history` before assuming that ".toList ++
    "earlier context is\ngone. Pull the raw prior turns (a past discussion, ".toList ++
    "an earlier attempt, the\noriginal context of a decision) and read them ".toList ++
    "before acting, rather than\nstarting cold.\n\n".toList

def buildAgentsMdBlock (template : Template) (strength : Strength) : List Char :=
  let block := replaceFirst (startMarker ++ ['\n'])
    (startMarker ++ ['\n'] ++ strength.armMarker ++ ['\n']) template.text
  match strength with
  | .base => block
  | .strong => replaceFirst endMarker (strongDirective ++ endMarker) block

def isNewline (c : Char) : Bool := c == '\n'

def rstripNewlines (text : List Char) : List Char := text.rdropWhile isNewline

def lstripNewlines (text : List Char) : List Char := text.dropWhile isNewline

/-- `text.strip()`. -/
def strip (text : List Char) : List Char := History.rstrip (text.dropWhile Text.isSpace)

def separator (text : List Char) : List Char := if text = [] then [] else ['\n', '\n']

def separatorBetween (before after : List Char) : List Char :=
  if before ≠ [] ∧ after ≠ [] then ['\n', '\n'] else []

def replaceAgentsMdBlock (content block : List Char) : List Char :=
  match findText startMarker content, findText endMarker content with
  | some startIdx, some endIdx =>
    let before := rstripNewlines (content.take startIdx)
    let after := lstripNewlines (content.drop (endIdx + endMarker.length))
    before ++ separator before ++ block ++ separator after ++ after
  | _, _ => content ++ separator (strip content) ++ block

/-- `_append_agents_md_block` on the text of the file. -/
def appendAgentsMdBlock (template : Template) (strength : Strength) (existing : List Char) :
    List Char :=
  let block := buildAgentsMdBlock template strength
  if (findText startMarker existing).isSome then replaceAgentsMdBlock existing block
  else existing ++ separator (strip existing) ++ block

/-- `_remove_agents_md_block` on the text of the file. -/
def removeAgentsMdBlock (content : List Char) : List Char :=
  match findText startMarker content, findText endMarker content with
  | some startIdx, some endIdx =>
    let before := rstripNewlines (content.take startIdx)
    let after := lstripNewlines (content.drop (endIdx + endMarker.length))
    before ++ separatorBetween before after ++ after
  | _, _ => content

inductive Step where
  | setup (strength : Strength)
  | remove

/-- One command on the text that the file is read as; there may be no file yet. -/
def step (template : Template) (file : Option (List Char)) : Step → Option (List Char)
  | .setup strength => some (appendAgentsMdBlock template strength (file.getD []))
  | .remove => file.map removeAgentsMdBlock

def run (template : Template) (file : Option (List Char)) (steps : List Step) :
    Option (List Char) :=
  steps.foldl (step template) file

/-! ## Markers in texts -/

def Clean (text : List Char) : Prop := ∀ marker ∈ markers, ¬ marker <:+: text

def Newlines (text : List Char) : Prop := ∀ c ∈ text, isNewline c

/-- The user's text in a file: all of it, or what stands before and after the first block. -/
inductive UserText : List Char → List Char → List Char → Prop
  | unmarked {text} (hclean : Clean text) : UserText text text []
  | marked {before inner after} (hbefore : Clean before)
      (hfirst : ¬ endMarker <:+: before ++ startMarker ++ inner) (hafter : Clean after) :
      UserText (before ++ startMarker ++ inner ++ endMarker ++ after) before after

variable {marker front back before after inner text content : List Char}

theorem startMarker_mem : startMarker ∈ markers := List.mem_cons_self

theorem endMarker_mem : endMarker ∈ markers := List.mem_cons_of_mem _ List.mem_cons_self

theorem marker_shape :
    ∀ marker ∈ markers, marker.head? = some '<' ∧ '\n' ∉ marker ∧ '<' ∉ marker.tail := by
  decide +kernel

theorem not_infix_of_notMem (hmarker : marker ∈ markers) (hout : '<' ∉ text) :
    ¬ marker <:+: text :=
  fun hoccurs => hout (hoccurs.subset (List.mem_of_mem_head? (marker_shape marker hmarker).1))

/-- A marker does not reach over a newline or into a text that starts as a marker does. -/
theorem not_infix_append (hmarker : marker ∈ markers) (hfront : ¬ marker <:+: front)
    (hback : ¬ marker <:+: back) (hhead : ∀ c ∈ back.head?, c = '\n' ∨ c = '<') :
    ¬ marker <:+: front ++ back := by
  obtain ⟨-, hnewline, htail⟩ := marker_shape marker hmarker
  rw [List.infix_append_iff_ne_nil]
  rintro (hinside | hinside | ⟨left, right, hleft, hright, rfl, -, hstarts⟩)
  · exact hfront hinside
  · exact hback hinside
  · obtain ⟨c, rest, rfl⟩ := List.exists_cons_of_ne_nil hright
    obtain ⟨behind, rfl⟩ := hstarts
    rw [List.tail_append_of_ne_nil hleft] at htail
    rcases hhead c rfl with rfl | rfl
    · exact hnewline (List.mem_append_right _ List.mem_cons_self)
    · exact htail (List.mem_append_right _ List.mem_cons_self)

theorem Clean.append (hfront : Clean front) (hback : Clean back)
    (hhead : ∀ c ∈ back.head?, c = '\n' ∨ c = '<') : Clean (front ++ back) :=
  fun marker hmarker => not_infix_append hmarker (hfront marker hmarker) (hback marker hmarker) hhead

theorem Clean.mono (hclean : Clean text) (hinside : front <:+: text) : Clean front :=
  fun marker hmarker hoccurs => hclean marker hmarker (hoccurs.trans hinside)

theorem clean_nil : Clean [] := by
  intro marker hmarker hoccurs
  obtain ⟨hhead, -⟩ := marker_shape marker hmarker
  rw [List.infix_nil.mp hoccurs] at hhead
  cases hhead

theorem Newlines.clean_append (hnewlines : Newlines front) (hclean : Clean back) :
    Clean (front ++ back) := by
  induction front with
  | nil => exact hclean
  | cons c rest ih =>
    intro marker hmarker hoccurs
    obtain ⟨hhead, hnewline, -⟩ := marker_shape marker hmarker
    have hc : c = '\n' := beq_iff_eq.mp (hnewlines c List.mem_cons_self)
    rcases List.infix_cons_iff.mp hoccurs with hstarts | hinside
    · obtain ⟨behind, rfl⟩ := List.head?_eq_some_iff.mp hhead
      exact absurd ((List.cons_prefix_cons.mp hstarts).1.trans hc) (by decide)
    · exact ih (List.forall_mem_cons.mp hnewlines).2 marker hmarker hinside

theorem Clean.append_newlines (hfront : Clean front) (hback : Newlines back) :
    Clean (front ++ back) := by
  have hclean := hback.clean_append clean_nil
  rw [List.append_nil] at hclean
  exact hfront.append hclean fun c hc =>
    Or.inl (beq_iff_eq.mp (hback c (List.mem_of_mem_head? hc)))

/-- The first occurrence of a marker behind a text without it. -/
theorem findText_append (hmarker : marker ∈ markers) (hfront : ¬ marker <:+: front)
    (back : List Char) : findText marker (front ++ marker ++ back) = some front.length := by
  obtain ⟨hhead, -, htail⟩ := marker_shape marker hmarker
  have hoccurs : marker <+: (front ++ marker ++ back).drop front.length := by simp
  obtain ⟨found, hfound⟩ := History.exists_findText hoccurs
  obtain ⟨hthere, hfirst⟩ := History.isPrefixOf_of_findText hfound
  rcases (hfirst _ hoccurs).eq_or_lt with rfl | hlt
  · exact hfound
  · exfalso
    rw [List.append_assoc, List.drop_append_of_le_length hlt.le] at hthere
    have hshort : ¬ marker <+: front.drop found := fun hstarts =>
      hfront (hstarts.isInfix.trans (List.drop_suffix found front).isInfix)
    obtain ⟨rest, hrest⟩ :=
      (List.prefix_or_prefix_of_prefix hthere (List.prefix_append _ _)).resolve_left hshort
    have hleft : front.drop found ≠ [] := by
      rw [Ne, List.drop_eq_nil_iff]
      exact not_le.mpr hlt
    have hright : rest ≠ [] := by
      rintro rfl
      exact hshort (by rw [← hrest, List.append_nil])
    -- The rest of the marker starts as the marker does.
    rw [← hrest, List.prefix_append_right_inj] at hthere
    obtain ⟨c, behind, rfl⟩ := List.exists_cons_of_ne_nil hright
    have hc : c = '<' := by
      obtain ⟨behind, hmarker⟩ := List.head?_eq_some_iff.mp hhead
      rw [hrest, hmarker] at hthere
      exact (List.cons_prefix_cons.mp hthere).1
    rw [← hrest, List.tail_append_of_ne_nil hleft] at htail
    exact htail (List.mem_append_right _ (hc ▸ List.mem_cons_self))

theorem findText_eq_none (hout : ¬ marker <:+: text) : findText marker text = none := by
  cases hfound : findText marker text with
  | none => rfl
  | some position =>
    have hthere := (History.isPrefixOf_of_findText hfound).1
    exact absurd (hthere.isInfix.trans (List.drop_suffix position text).isInfix) hout

/-! ## Newlines at the ends -/

theorem rstrip_append (hnewlines : Newlines back) (front : List Char) :
    rstripNewlines (front ++ back) = rstripNewlines front := by
  rw [rstripNewlines, List.rdropWhile, List.reverse_append, List.dropWhile_append_of_pos]
  · rfl
  · intro c hc
    exact hnewlines c (List.mem_reverse.mp hc)

theorem lstrip_append (hnewlines : Newlines front) (back : List Char) :
    lstripNewlines (front ++ back) = lstripNewlines back :=
  List.dropWhile_append_of_pos hnewlines

theorem rstrip_idem (text : List Char) :
    rstripNewlines (rstripNewlines text) = rstripNewlines text :=
  List.rdropWhile_idempotent _ _

theorem lstrip_idem (text : List Char) :
    lstripNewlines (lstripNewlines text) = lstripNewlines text :=
  List.dropWhile_idempotent _ _

/-- Behind another text, only the newlines at the end of a text go. -/
theorem rstrip_append_lstrip (hne : lstripNewlines back ≠ []) (front : List Char) :
    rstripNewlines (front ++ lstripNewlines back) =
      front ++ rstripNewlines (lstripNewlines back) := by
  obtain ⟨c, rest, hback⟩ := List.exists_cons_of_ne_nil hne
  have hhead := List.head?_dropWhile_not isNewline back
  rw [← lstripNewlines, hback] at hhead
  have hkept : rstripNewlines (lstripNewlines back) ≠ [] := by
    rw [hback, rstripNewlines, Ne, List.rdropWhile_eq_nil_iff]
    exact fun hall => Bool.eq_false_iff.mp hhead (hall c List.mem_cons_self)
  rw [rstripNewlines, List.rdropWhile] at hkept ⊢
  rw [List.reverse_append, List.dropWhile_append, if_neg (by simpa using hkept),
    List.reverse_append, List.reverse_reverse]
  rfl

theorem newlines_pair : Newlines ['\n', '\n'] := by simp [Newlines, isNewline]

theorem newlines_separator (text : List Char) : Newlines (separator text) := by
  rw [separator]
  split
  · simp [Newlines]
  · exact newlines_pair

theorem newlines_between (before after : List Char) :
    Newlines (separatorBetween before after) := by
  rw [separatorBetween]
  split
  · exact newlines_pair
  · simp [Newlines]

theorem Template.newlines_ending (template : Template) : Newlines template.ending :=
  fun c hc => beq_iff_eq.mpr (template.newlines c hc)

/-- Two texts of the user stand around the block or both before it, apart from newlines at the
ends of what stands there. -/
def Stands (front back before after : List Char) : Prop :=
  (rstripNewlines before = front ∧ rstripNewlines (lstripNewlines after) = back) ∨
    ∃ between, Newlines between ∧ rstripNewlines before = front ++ between ++ back ∧
      lstripNewlines after = []

/-! ## The commands -/

variable (template : Template) (strength : Strength)

def Strength.directive : Strength → List Char
  | .base => []
  | .strong => strongDirective

/-- What the built block has between its markers. -/
def innerText : List Char :=
  ['\n'] ++ strength.armMarker ++ '\n' :: (template.body ++ strength.directive)

theorem noEnd_opening (rest : List Char) (hrest : ¬ endMarker <:+: rest) :
    ¬ endMarker <:+: startMarker ++ (['\n'] ++ strength.armMarker ++ '\n' :: rest) := by
  have hopening : ¬ endMarker <:+: startMarker ++ (['\n'] ++ strength.armMarker) := by
    cases strength <;> decide +kernel
  rw [← List.append_assoc]
  refine not_infix_append endMarker_mem hopening ?_ fun c hc => Or.inl (Option.some.inj hc).symm
  rw [List.infix_cons_iff]
  rintro (hstarts | hinside)
  · exact absurd (List.cons_prefix_cons.mp hstarts).1 (by decide)
  · exact hrest hinside

theorem innerText_noEnd : ¬ endMarker <:+: startMarker ++ innerText template strength := by
  refine noEnd_opening strength _ (not_infix_append endMarker_mem template.oneEnd ?_ ?_)
  · cases strength with
    | base => exact not_infix_of_notMem endMarker_mem List.not_mem_nil
    | strong => exact not_infix_of_notMem endMarker_mem (by decide +kernel)
  · cases strength with
    | base => exact fun c hc => nomatch hc
    | strong => exact fun c hc => Or.inl (Option.some.inj hc).symm

theorem replaceFirst_append {old : List Char} (new : List Char)
    (hfound : findText old (front ++ old ++ back) = some front.length) :
    replaceFirst old new (front ++ old ++ back) = front ++ new ++ back := by
  rw [replaceFirst, hfound]
  simp only [← List.length_append, List.drop_left]
  rw [List.append_assoc front old, List.take_left]

/-- The built block has its markers at its ends. -/
theorem buildAgentsMdBlock_eq : buildAgentsMdBlock template strength =
    startMarker ++ innerText template strength ++ endMarker ++ template.ending := by
  have htext : template.text = [] ++ (startMarker ++ ['\n']) ++
      (template.body ++ endMarker ++ template.ending) := by
    simp [Template.text]
  have hstart : findText (startMarker ++ ['\n']) ([] ++ (startMarker ++ ['\n']) ++
      (template.body ++ endMarker ++ template.ending)) = some 0 := by
    have hoccurs : startMarker ++ ['\n'] <+: (startMarker ++ ['\n'] ++
        (template.body ++ endMarker ++ template.ending)).drop 0 := List.prefix_append _ _
    obtain ⟨found, hfound⟩ := History.exists_findText hoccurs
    have hzero := (History.isPrefixOf_of_findText hfound).2 0 hoccurs
    rw [List.nil_append, hfound, Nat.le_zero.mp hzero]
  have hopened : startMarker ++ ['\n'] ++ strength.armMarker ++ ['\n'] ++
      (template.body ++ endMarker ++ template.ending) =
        startMarker ++ (['\n'] ++ strength.armMarker ++ '\n' :: template.body) ++ endMarker ++
          template.ending := by
    simp
  unfold buildAgentsMdBlock
  rw [htext, replaceFirst_append _ hstart, List.nil_append, hopened]
  cases strength with
  | base => simp [innerText, Strength.directive]
  | strong =>
    have hfound :=
      findText_append endMarker_mem (noEnd_opening .strong _ template.oneEnd) template.ending
    refine (replaceFirst_append _ hfound).trans ?_
    simp [innerText, Strength.directive]

section

variable (hbefore : Clean before) (hfirst : ¬ endMarker <:+: before ++ startMarker ++ inner)
  (after : List Char)
include hbefore hfirst

/-- Where the two markers of a file with one block are found. -/
theorem findText_marked :
    let content := before ++ startMarker ++ inner ++ endMarker ++ after
    findText startMarker content = some before.length ∧
      findText endMarker content = some (before ++ startMarker ++ inner).length ∧
      content.take before.length = before ∧
      content.drop ((before ++ startMarker ++ inner).length + endMarker.length) = after := by
  intro content
  have hstart : content = before ++ startMarker ++ (inner ++ endMarker ++ after) := by
    simp [content]
  refine ⟨?_, ?_, ?_, ?_⟩
  · rw [hstart]
    exact findText_append startMarker_mem (hbefore _ startMarker_mem) _
  · exact findText_append endMarker_mem hfirst _
  · rw [hstart, List.append_assoc, List.take_left]
  · rw [← List.length_append, List.drop_left]

theorem setup_marked :
    appendAgentsMdBlock template strength
        (before ++ startMarker ++ inner ++ endMarker ++ after) =
      rstripNewlines before ++ separator (rstripNewlines before) ++
        buildAgentsMdBlock template strength ++
        (separator (lstripNewlines after) ++ lstripNewlines after) := by
  obtain ⟨hstart, hend, htake, hdrop⟩ := findText_marked hbefore hfirst after
  rw [appendAgentsMdBlock, hstart, replaceAgentsMdBlock, hstart, hend]
  simp only [Option.isSome_some, if_true, htake, hdrop]
  rw [List.append_assoc]

end

theorem setup_unmarked (hclean : Clean content) :
    appendAgentsMdBlock template strength content =
      content ++ separator (strip content) ++ buildAgentsMdBlock template strength := by
  rw [appendAgentsMdBlock, findText_eq_none (hclean _ startMarker_mem)]
  rfl

theorem installed_eq (front back : List Char) :
    front ++ buildAgentsMdBlock template strength ++ back =
      front ++ startMarker ++ innerText template strength ++ endMarker ++
        (template.ending ++ back) := by
  rw [buildAgentsMdBlock_eq]
  simp only [List.append_assoc]

theorem installed_noEnd (hfront : Clean front) :
    ¬ endMarker <:+: front ++ startMarker ++ innerText template strength := by
  rw [List.append_assoc]
  exact not_infix_append endMarker_mem (hfront _ endMarker_mem)
    (innerText_noEnd template strength) fun c hc => Or.inr (Option.some.inj hc).symm

/-- An installed block with clean text around it. -/
theorem userText_installed (hfront : Clean front) (hback : Clean back) :
    UserText (front ++ buildAgentsMdBlock template strength ++ back) front
      (template.ending ++ back) := by
  rw [installed_eq]
  exact UserText.marked hfront (installed_noEnd template strength hfront)
    (template.newlines_ending.clean_append hback)

theorem setup_installed (hfront : Clean front) (back : List Char) :
    appendAgentsMdBlock template strength
        (front ++ buildAgentsMdBlock template strength ++ back) =
      rstripNewlines front ++ separator (rstripNewlines front) ++
        buildAgentsMdBlock template strength ++
        (separator (lstripNewlines back) ++ lstripNewlines back) := by
  rw [installed_eq, setup_marked template strength hfront
    (installed_noEnd template strength hfront), lstrip_append template.newlines_ending]

/-- A setup leaves the block of its strength between clean texts, and of the user's text it
changes only newlines at the ends. -/
theorem UserText.setup (htext : UserText content before after) :
    ∃ ahead behind, appendAgentsMdBlock template strength content =
        ahead ++ buildAgentsMdBlock template strength ++ behind ∧
      Clean ahead ∧ Clean behind ∧ rstripNewlines ahead = rstripNewlines before ∧
        lstripNewlines behind = lstripNewlines after := by
  cases htext with
  | unmarked hclean =>
    exact ⟨_, [], (setup_unmarked template strength hclean).trans (List.append_nil _).symm,
      hclean.append_newlines (newlines_separator _), clean_nil,
      rstrip_append (newlines_separator _) _, rfl⟩
  | marked hbefore hfirst hafter =>
    refine ⟨_, _, setup_marked template strength hbefore hfirst after, ?_, ?_, ?_, ?_⟩
    · exact (hbefore.mono (List.rdropWhile_prefix isNewline _).isInfix).append_newlines
        (newlines_separator _)
    · exact (newlines_separator _).clean_append
        (hafter.mono (List.dropWhile_suffix isNewline).isInfix)
    · rw [rstrip_append (newlines_separator _), rstrip_idem]
    · rw [lstrip_append (newlines_separator _), lstrip_idem]

/-- A removal leaves a clean file with the user's text. -/
theorem UserText.remove (htext : UserText content before after)
    (hstands : Stands front back before after) :
    ∃ ahead behind, UserText (removeAgentsMdBlock content) ahead behind ∧
      Stands front back ahead behind := by
  cases htext with
  | unmarked hclean =>
    refine ⟨_, _, ?_, hstands⟩
    rw [removeAgentsMdBlock, findText_eq_none (hclean _ startMarker_mem)]
    exact UserText.unmarked hclean
  | marked hbefore hfirst hafter =>
    obtain ⟨hstart, hend, htake, hdrop⟩ := findText_marked hbefore hfirst after
    have hfront : Clean (rstripNewlines before) := hbefore.mono (List.rdropWhile_prefix _ _).isInfix
    have hback : Clean (lstripNewlines after) := hafter.mono (List.dropWhile_suffix _).isInfix
    rw [removeAgentsMdBlock, hstart, hend]
    simp only [htake, hdrop]
    by_cases hnone : lstripNewlines after = []
    · have hleft : rstripNewlines before ++ separatorBetween (rstripNewlines before)
          (lstripNewlines after) ++ lstripNewlines after = rstripNewlines before := by
        rw [separatorBetween, if_neg (fun hboth => hboth.2 hnone), hnone, List.append_nil,
          List.append_nil]
      rw [hleft]
      refine ⟨_, [], UserText.unmarked hfront, ?_⟩
      have hsame : lstripNewlines [] = lstripNewlines after := hnone.symm
      rw [Stands, rstrip_idem, hsame]
      exact hstands
    · refine ⟨_, [], UserText.unmarked ?_, ?_⟩
      · rw [separatorBetween, List.append_assoc]
        split
        · exact hfront.append (newlines_pair.clean_append hback) fun c hc =>
            Or.inl (Option.some.inj hc).symm
        · next hone =>
            rw [not_not.mp fun hfull => hone ⟨hfull, hnone⟩]
            exact hback
      · obtain ⟨rfl, rfl⟩ := hstands.resolve_right fun ⟨_, _, _, hempty⟩ => hnone hempty
        exact Or.inr ⟨_, newlines_between _ _, rstrip_append_lstrip hnone _, rfl⟩

/-- The user's two texts are in the file. -/
def Keeps (front back : List Char) (file : Option (List Char)) : Prop :=
  ∃ before after, UserText (file.getD []) before after ∧ Stands front back before after

variable {file : Option (List Char)}

theorem step_keeps (hkeeps : Keeps front back file) (action : Step) :
    Keeps front back (step template file action) := by
  obtain ⟨before, after, htext, hstands⟩ := hkeeps
  cases action with
  | setup strength =>
    obtain ⟨ahead, behind, hsetup, hahead, hbehind, hbefore, hafter⟩ :=
      htext.setup template strength
    refine ⟨ahead, template.ending ++ behind, ?_, ?_⟩
    · rw [step, Option.getD_some, hsetup]
      exact userText_installed template strength hahead hbehind
    · rw [Stands, hbefore, lstrip_append template.newlines_ending, hafter]
      exact hstands
  | remove =>
    cases file with
    | none => exact ⟨before, after, htext, hstands⟩
    | some content => exact htext.remove hstands

theorem run_keeps (hkeeps : Keeps front back file) (steps : List Step) :
    Keeps front back (run template file steps) := by
  induction steps generalizing file with
  | nil => exact hkeeps
  | cons action rest ih => exact ih (step_keeps template hkeeps action)

/-- A file without a block that a setup ends with its block the way the next one does. -/
def Tidy (content : List Char) : Prop :=
  if strip content = [] then
    content = [] ∨ rstripNewlines content ≠ [] ∧ content = rstripNewlines content ++ ['\n', '\n']
  else rstripNewlines content = content

theorem tidy_iff : rstripNewlines content ++ separator (rstripNewlines content) =
    content ++ separator (strip content) ↔ Tidy content := by
  rw [Tidy]
  split
  · next hblank =>
      rw [hblank, separator, separator, if_pos rfl, List.append_nil]
      by_cases hnewlines : rstripNewlines content = []
      · simp [hnewlines, eq_comm]
      · have hcontent : content ≠ [] := fun hempty => hnewlines (by rw [hempty]; rfl)
        simp [hnewlines, hcontent, eq_comm]
  · next htext =>
      have hnewlines : rstripNewlines content ≠ [] := fun hempty => htext <| by
        have hspaces : ∀ c ∈ content, Text.isSpace c := fun c hc =>
          beq_iff_eq.mp (List.rdropWhile_eq_nil_iff.mp hempty c hc) ▸ by decide
        rw [strip, List.dropWhile_eq_nil_iff.mpr hspaces]
        rfl
      rw [separator, separator, if_neg htext, if_neg hnewlines, List.append_left_inj]

/-- The second of two setups changes nothing exactly if the first one found a block or a tidy
file. -/
theorem UserText.setup_twice_iff (htext : UserText content before after) :
    appendAgentsMdBlock template strength (appendAgentsMdBlock template strength content) =
        appendAgentsMdBlock template strength content ↔
      startMarker <:+: content ∨ Tidy content := by
  cases htext with
  | unmarked hclean =>
    have hseparated := hclean.append_newlines (newlines_separator (strip before))
    have hagain := setup_installed template strength hseparated []
    rw [List.append_nil, ← setup_unmarked template strength hclean,
      rstrip_append (newlines_separator _)] at hagain
    have hno : ¬ startMarker <:+: before := hclean _ startMarker_mem
    rw [hagain, or_iff_right hno, ← tidy_iff, setup_unmarked template strength hclean]
    have hnothing : separator (lstripNewlines []) ++ lstripNewlines [] = [] := rfl
    rw [hnothing, List.append_nil, List.append_left_inj]
  | @marked _ inner after hbefore hfirst hafter =>
    have hseparated : Clean (rstripNewlines before ++ separator (rstripNewlines before)) :=
      (hbefore.mono (List.rdropWhile_prefix _ _).isInfix).append_newlines (newlines_separator _)
    refine iff_of_true ?_ (Or.inl ⟨before, inner ++ endMarker ++ after, by simp⟩)
    rw [setup_marked template strength hbefore hfirst]
    exact (setup_installed template strength hseparated _).trans (by
      rw [rstrip_append (newlines_separator _), rstrip_idem,
        lstrip_append (newlines_separator _), lstrip_idem])

/-- Over every run from a file whose markers bound one block, or without markers: the user's
text stays, in its order and but for newlines at its ends.  After a setup the file is clean
around the one block of that setup, and setting up again changes nothing exactly if the
setup found a block or a tidy file. -/
theorem run_keeps_user_text (htext : UserText (file.getD []) before after) (steps : List Step) :
    (∃ ahead behind, UserText ((run template file steps).getD []) ahead behind ∧
        Stands (rstripNewlines before) (rstripNewlines (lstripNewlines after)) ahead behind) ∧
      ∀ strength, (∃ ahead behind, run template file (steps ++ [.setup strength]) =
            some (ahead ++ buildAgentsMdBlock template strength ++ behind) ∧
          Clean ahead ∧ Clean behind) ∧
        (run template file (steps ++ [.setup strength, .setup strength]) =
            run template file (steps ++ [.setup strength]) ↔
          startMarker <:+: (run template file steps).getD [] ∨
            Tidy ((run template file steps).getD [])) := by
  have hkeeps := run_keeps template ⟨before, after, htext, Or.inl ⟨rfl, rfl⟩⟩ steps
  refine ⟨hkeeps, fun strength => ?_⟩
  obtain ⟨ahead, behind, hreached, -⟩ := hkeeps
  constructor
  · obtain ⟨front, back, hsetup, hfront, hback, -⟩ := hreached.setup template strength
    refine ⟨front, back, ?_, hfront, hback⟩
    rw [run, List.foldl_append]
    exact congrArg some hsetup
  · have htwice := hreached.setup_twice_iff template strength
    simp only [run, List.foldl_append, List.foldl_cons, List.foldl_nil, step, Option.getD_some,
      Option.some.injEq]
    exact htwice

/-- A block as short as a template can have it. -/
def sampleTemplate : Template where
  body := "Load the `pallium-memory` skill.\n".toList
  ending := ['\n']
  oneEnd := not_infix_of_notMem endMarker_mem (by decide +kernel)
  newlines := by simp

theorem run_keeps_user_text_notes :
    let file := some ("notes".toList ++ startMarker ++ [] ++ endMarker ++ "more".toList)
    ∃ ahead behind, UserText ((run sampleTemplate file [.setup .base, .remove]).getD [])
        ahead behind ∧ Stands "notes".toList "more".toList ahead behind := by
  intro file
  have htext : UserText (file.getD []) "notes".toList "more".toList :=
    UserText.marked (by unfold Clean; decide +kernel) (by decide +kernel)
      (by unfold Clean; decide +kernel)
  exact (run_keeps_user_text sampleTemplate htext [.setup .base, .remove]).1

/-- With a start marker alone in the notes, the second setup removes what follows it. -/
theorem setup_twice_loses_text :
    let content := "notes\n<!-- pallium:start -->\nmore".toList
    ¬ endMarker <:+: content ∧ "more".toList <:+: content ∧
      ∀ file ∈ run sampleTemplate (some content) [.setup .base, .setup .base],
        ¬ "more".toList <:+: file := by
  decide +kernel

end Pallium.Integration
