import Pallium.Expansion.Window

/-!
# Reading a source page by page

Every page shows a window of the context and a segment of the anchor's content, and the
next page begins where it ends.  Each page has room for a character, so the pages come
to an end.
-/

namespace Pallium.Expansion

open Text

def Expansion.anchorContent (out : Expansion) : String :=
  ((out.items.find? ShownItem.isAnchor).map ShownItem.content).getD ""

/-- What the pages of one content have in common. -/
def Expansion.header (out : Expansion) : ℕ × ℕ × String :=
  (out.contentOffset, out.contentTotalChars, out.contentRevision)

/-- The page holds so many characters of what remains. -/
structure Page (paging : Paging) (chars : ℕ) (out : Expansion) : Prop where
  anchor : ∃ base, out.items.find? ShownItem.isAnchor = some (paging.anchorPage base chars)
  nextOffset : out.nextOffset =
    if paging.offset + chars < paging.total then some (paging.offset + chars) else none

/-- The page shows a window of the context under this header. -/
structure Shows (context : AnchoredContext) (header : ℕ × ℕ × String) (out : Expansion) :
    Prop where
  window : ∃ skipped kept, Window context skipped kept out
  header : out.header = header

variable {context : AnchoredContext} {header : ℕ × ℕ × String} {paging : Paging}
  {base : ShownItem} {chars : ℕ} {out next : Expansion}

namespace Shows

variable (hshows : Shows context header out)
include hshows

theorem congr (hitems : next.items.map ShownItem.frame = out.items.map ShownItem.frame)
    (hnavigation : next.nextSourceItemId = out.nextSourceItemId)
    (hheader : next.header = out.header) : Shows context header next where
  window := by
    obtain ⟨skipped, kept, hwindow⟩ := hshows.window
    exact ⟨skipped, kept, hwindow.congr hitems hnavigation⟩
  header := hheader.trans hshows.header

theorem exists_anchor :
    ∃ index item, out.items.findIdx ShownItem.isAnchor = index ∧ out.items[index]? = some item ∧
      item.frame = context.anchor.frame ∧
        out.items.find? ShownItem.isAnchor = out.items[index]? := by
  obtain ⟨skipped, kept, hwindow⟩ := hshows.window
  obtain ⟨item, hitem, hframe⟩ := hwindow.exists_anchor
  refine ⟨_, item, hwindow.findIdx_anchor, hitem, hframe, ?_⟩
  rw [List.find?_eq_getElem?_findIdx, hwindow.findIdx_anchor]

theorem set {index : ℕ} {original item : ShownItem}
    (horiginal : out.items[index]? = some original) (hframe : item.frame = original.frame) :
    Shows context header (setItem index item out) :=
  hshows.congr (map_frame_set horiginal hframe) rfl rfl

theorem setAnchorPage (hbase : base.frame = context.anchor.frame) (chars : ℕ) :
    Shows context header (paging.setAnchorPage base chars out) ∧
      Page paging chars (paging.setAnchorPage base chars out) := by
  obtain ⟨index, item, hindex, hitem, hframe, -⟩ := hshows.exists_anchor
  have hpage : (paging.anchorPage base chars).frame = item.frame := hbase.trans hframe.symm
  have hframes : (paging.setAnchorPage base chars out).items.map ShownItem.frame =
      out.items.map ShownItem.frame := by
    simp only [Paging.setAnchorPage, hindex]
    exact map_frame_set hitem hpage
  have hset : Shows context header (paging.setAnchorPage base chars out) :=
    hshows.congr hframes rfl rfl
  refine ⟨hset, ⟨base, ?_⟩, ?_⟩
  · have hplace : (paging.setAnchorPage base chars out).items.findIdx ShownItem.isAnchor =
        index := by
      rw [← findIdx_frame, hframes, findIdx_frame, hindex]
    rw [List.find?_eq_getElem?_findIdx, hplace]
    simp only [Paging.setAnchorPage, hindex]
    exact List.getElem?_set_self (List.getElem?_eq_some_iff.mp hitem).1
  · simp only [Paging.setAnchorPage, decide_eq_true_eq]

theorem modifyUpdates (index : ℕ)
    {change : ShownItem → ShownItem} (hchange : ∀ item, (change item).frame = item.frame) :
    Shows context header (Expansion.modifyUpdates index change out) :=
  hshows.congr (map_frame_modify hchange out.items index) rfl rfl

theorem cutTexts (budget : ℕ) :
    Shows context header (Expansion.cutTexts budget out) := by
  fun_induction Expansion.cutTexts budget out with
  | case1 out hdone => exact hshows
  | case2 out hmore hnone => exact hshows
  | case3 out hmore found hlongest ih => exact ih (hshows.modifyUpdates found.1 fun _ => rfl)

theorem removeUpdates (budget : ℕ) :
    Shows context header (Expansion.removeUpdates budget out) := by
  fun_induction Expansion.removeUpdates budget out with
  | case1 out hdone => exact hshows
  | case2 out hmore hnone => exact hshows
  | case3 out hmore found hremovable ih => exact ih (hshows.modifyUpdates found.1 fun _ => rfl)

theorem dropFarthest (budget : ℕ) :
    Shows context header (Expansion.dropFarthest budget context.followingIds out) where
  window := by
    obtain ⟨skipped, kept, hwindow⟩ := hshows.window
    exact hwindow.dropFarthest budget
  header := by
    rw [← hshows.header]
    clear hshows
    fun_induction Expansion.dropFarthest budget context.followingIds out with
    | case1 out hdone => rfl
    | case2 out hmore hnone => rfl
    | case3 out hmore item hfarthest ih => exact ih

theorem squeeze (hbase : base.frame = context.anchor.frame)
    (hfollowing : paging.followingIds = context.followingIds) :
    (paging.squeeze base out).2.frame = context.anchor.frame ∧
      Shows context header (paging.squeeze base out).1 ∧
        Page paging paging.remaining.length (paging.squeeze base out).1 := by
  have hstart := (@setAnchorPage _ _ paging _ _ hshows hbase 0).1
  have htrimmed : Shows context header
      (trimUpdateDetails paging.budget (paging.setAnchorPage base 0 out)) :=
    (hstart.cutTexts paging.budget).removeUpdates paging.budget
  obtain ⟨index, item, hindex, hitem, hframe, hfind⟩ := htrimmed.exists_anchor
  have hframed : (((trimUpdateDetails paging.budget (paging.setAnchorPage base 0 out)).items.find?
      ShownItem.isAnchor).getD base).frame = context.anchor.frame := by
    rw [hfind, hitem]
    exact hframe
  have hbrief : Shows context header
      (if paging.fits (trimUpdateDetails paging.budget (paging.setAnchorPage base 0 out)) then
        trimUpdateDetails paging.budget (paging.setAnchorPage base 0 out)
      else { trimUpdateDetails paging.budget (paging.setAnchorPage base 0 out) with
        supportedMemories := some none }) := by
    split
    · exact htrimmed
    · exact htrimmed.congr rfl rfl rfl
  have hdropped := hbrief.dropFarthest paging.budget
  rw [← hfollowing] at hdropped
  exact ⟨hframed, hdropped.setAnchorPage hframed paging.remaining.length⟩

theorem withoutMemories :
    Shows context header (paging.withoutMemories out) := by
  unfold Paging.withoutMemories
  split
  · exact hshows.congr rfl rfl rfl
  · exact hshows

end Shows

theorem Page.withoutMemories (hpage : Page paging chars out) :
    Page paging chars (paging.withoutMemories out) := by
  unfold Paging.withoutMemories
  split
  · exact ⟨hpage.anchor, hpage.nextOffset⟩
  · exact hpage

theorem Shows.cutAnchor {low : ℕ} (hshows : Shows context header out)
    (hbase : base.frame = context.anchor.frame) (hpage : Page paging paging.remaining.length out)
    (hcut : paging.cutAnchor base out = .ok (next, low)) :
    Shows context header next ∧ Page paging low next ∧ low ≤ paging.remaining.length := by
  unfold Paging.cutAnchor at hcut
  split at hcut
  · obtain ⟨rfl, rfl⟩ := Prod.mk.inj (Except.ok.inj hcut)
    exact ⟨hshows, hpage, le_rfl⟩
  · simp only at hcut
    split at hcut
    · obtain ⟨rfl, rfl⟩ := Prod.mk.inj (Except.ok.inj hcut)
      have hstart := (@Shows.setAnchorPage _ _ paging _ _ hshows hbase 0).1
      obtain ⟨hset, hsegment⟩ := @Shows.setAnchorPage _ _ paging _ _ hstart hbase
        (lastFitting (fun chars => paging.fits (paging.setAnchorPage base chars
          (paging.setAnchorPage base 0 out))) 0 (paging.remaining.length - 1))
      exact ⟨hset, hsegment, (lastFitting_le (Nat.zero_le _)).trans (Nat.sub_le _ _)⟩
    · cases hcut

section Neighbours

variable {budget : ℕ} {contents : String → String} {index : ℕ}

/-- What is set at another place leaves the anchor. -/
theorem Page.setItem {original item : ShownItem} (hshows : Shows context header out)
    (hpage : Page paging chars out) (horiginal : out.items[index]? = some original)
    (hframe : item.frame = original.frame) (hother : index ≠ out.items.findIdx ShownItem.isAnchor) :
    Page paging chars (Expansion.setItem index item out) ∧
      (Expansion.setItem index item out).items.findIdx ShownItem.isAnchor =
        out.items.findIdx ShownItem.isAnchor := by
  have hplace : (out.items.set index item).findIdx ShownItem.isAnchor =
      out.items.findIdx ShownItem.isAnchor := by
    rw [← findIdx_frame, map_frame_set horiginal hframe, findIdx_frame]
  refine ⟨⟨?_, hpage.nextOffset⟩, hplace⟩
  obtain ⟨base, hbase⟩ := hpage.anchor
  refine ⟨base, ?_⟩
  rw [List.find?_eq_getElem?_findIdx] at hbase ⊢
  simp only [Expansion.setItem]
  rw [hplace, List.getElem?_set_ne hother]
  exact hbase

theorem fillNeighbor_cases (budget : ℕ) (contents : String → String) (index : ℕ)
    (out : Expansion) : fillNeighbor budget contents index out = out ∨
      ∃ original item, out.items[index]? = some original ∧ item.frame = original.frame ∧
        fillNeighbor budget contents index out = Expansion.setItem index item out := by
  unfold fillNeighbor
  cases horiginal : out.items[index]? with
  | none => exact Or.inl rfl
  | some original =>
    simp only
    split
    · exact Or.inl rfl
    · split
      · refine Or.inr ⟨original, _, rfl, ?_, rfl⟩
        rfl
      · refine Or.inr ⟨original, _, rfl, ?_, rfl⟩
        rfl

theorem mem_neighborOrder {items : List ShownItem} (hindex : index ∈ neighborOrder items) :
    index ≠ items.findIdx ShownItem.isAnchor := by
  rw [neighborOrder, List.mem_insertionSort, List.mem_filter, decide_eq_true_eq] at hindex
  exact hindex.2

theorem Shows.fillNeighbors (hshows : Shows context header out) (hpage : Page paging chars out) :
    Shows context header (Expansion.fillNeighbors budget contents out) ∧
      Page paging chars (Expansion.fillNeighbors budget contents out) := by
  have hfold : ∀ (order : List ℕ) (out : Expansion), Shows context header out →
      Page paging chars out → (∀ index ∈ order, index ≠ out.items.findIdx ShownItem.isAnchor) →
        Shows context header (order.foldl (fun out index => fillNeighbor budget contents index out)
            out) ∧
          Page paging chars (order.foldl (fun out index => fillNeighbor budget contents index out)
            out) := by
    intro order
    induction order with
    | nil => exact fun out hshows hpage _ => ⟨hshows, hpage⟩
    | cons index rest ih =>
      intro out hshows hpage hothers
      rcases fillNeighbor_cases budget contents index out with hsame |
        ⟨original, item, horiginal, hframe, hset⟩
      · rw [List.foldl_cons, hsame]
        exact ih out hshows hpage (List.forall_mem_cons.mp hothers).2
      · obtain ⟨hkept, hplace⟩ :=
          hpage.setItem hshows horiginal hframe (hothers index List.mem_cons_self)
        rw [List.foldl_cons, hset]
        refine ih _ (hshows.set horiginal hframe) hkept fun other hother => ?_
        rw [hplace]
        exact hothers other (List.mem_cons_of_mem _ hother)
  exact hfold _ out hshows hpage fun index => mem_neighborOrder

end Neighbours

section Expanding

namespace AnchoredContext

/-- The items of the context as they are first projected. -/
def projected (context : AnchoredContext) : List ShownItem :=
  context.toContext.items.map SourceTurn.project

theorem projected_eq (context : AnchoredContext) : context.projected =
    context.preceding.map SourceTurn.project ++
      context.anchor.project :: context.following.map SourceTurn.project := by
  rw [projected, toContext, List.map_append, List.map_cons]

theorem find_anchor (context : AnchoredContext) :
    context.projected.find? ShownItem.isAnchor = some context.anchor.project := by
  have hbefore : (context.preceding.map SourceTurn.project).find? ShownItem.isAnchor = none := by
    refine List.find?_eq_none.mpr fun item hitem => ?_
    obtain ⟨turn, hturn, rfl⟩ := List.mem_map.mp hitem
    have hflag := context.unanchored turn (List.mem_append_left _ hturn)
    change ¬ turn.isAnchor = true
    rw [hflag]
    exact Bool.false_ne_true
  have hanchor : context.anchor.project.isAnchor = true := context.anchored
  rw [projected_eq, List.find?_append, hbefore, List.find?_cons_of_pos hanchor]
  rfl

theorem following_of_idxOf (context : AnchoredContext) :
    (context.projected.drop (context.projected.idxOf context.anchor.project + 1)).map
      ShownItem.sourceItemId = context.followingIds := by
  have hnot : context.anchor.project ∉ context.preceding.map SourceTurn.project := by
    intro hmem
    obtain ⟨turn, hturn, hsame⟩ := List.mem_map.mp hmem
    have hflag := context.unanchored turn (List.mem_append_left _ hturn)
    have hanchor : turn.isAnchor = context.anchor.isAnchor := congrArg ShownItem.isAnchor hsame
    rw [hflag, context.anchored] at hanchor
    cases hanchor
  rw [projected_eq, List.idxOf_append_of_notMem hnot, List.idxOf_cons_self,
    show (context.preceding.map SourceTurn.project).length + 0 + 1 =
      (context.preceding.map SourceTurn.project).length + 1 from rfl,
    List.drop_length_add_append, List.drop_one, List.tail_cons, List.map_map]
  rfl

end AnchoredContext

variable {digest : String → String} {budget offset : ℕ}

/-- The values of a page that begins at the offset. -/
def AnchoredContext.pagingAt (context : AnchoredContext) (budget offset : ℕ) : Paging where
  budget := budget
  offset := min offset context.anchor.content.length
  total := context.anchor.content.length
  remaining := drop (min offset context.anchor.content.length) context.anchor.content
  followingIds := context.followingIds

def AnchoredContext.headerAt (context : AnchoredContext) (digest : String → String)
    (offset : ℕ) : ℕ × ℕ × String :=
  (min offset context.anchor.content.length, context.anchor.content.length,
    revisionOf digest context.anchor.content)

theorem shows_openExpansion (digest : String → String) (budget offset : ℕ) (continued : Bool) :
    Shows context (context.headerAt digest offset)
      (openExpansion digest context.toContext (context.pagingAt budget offset) continued
        context.anchor.project context.projected) where
  window := by
    have hframes : ∀ items : List ShownItem,
        (items.map ShownItem.cleared).map ShownItem.frame = items.map ShownItem.frame := by
      intro items
      rw [List.map_map]
      rfl
    cases continued with
    | true =>
      refine ⟨context.preceding.length, 0, ?_, le_rfl, Nat.zero_le _, ?_⟩
      · refine (hframes _).trans ?_
        rw [AnchoredContext.shown, List.drop_length, List.take_zero]
        rfl
      · change context.followingIds.head?.or context.nextSourceItemId = _
        rw [AnchoredContext.navigation, List.drop_zero, AnchoredContext.followingIds,
          List.head?_map]
    | false =>
      refine ⟨0, context.following.length, ?_, Nat.zero_le _, le_rfl, ?_⟩
      · refine (hframes _).trans ?_
        rw [AnchoredContext.shown, List.drop_zero, List.take_length]
        change (context.toContext.items.map SourceTurn.project).map ShownItem.frame = _
        rw [List.map_map]
        rfl
      · exact context.navigation_all.symm
  header := rfl

theorem page_of_expandAnchor
    (hpage : expandAnchor digest context.toContext budget offset context.anchor.project
      context.projected = .page out) :
    Shows context (context.headerAt digest offset) out ∧ out.size ≤ budget ∧
      ∃ low, Page (context.pagingAt budget offset) low out ∧
        low ≤ (context.pagingAt budget offset).remaining.length ∧
          ((context.pagingAt budget offset).remaining ≠ "" → 0 < low) := by
  have hpaging : (⟨budget, min offset context.anchor.project.content.length,
      context.anchor.project.content.length,
      drop (min offset context.anchor.project.content.length) context.anchor.project.content,
      (context.projected.drop (context.projected.idxOf context.anchor.project + 1)).map
        ShownItem.sourceItemId⟩ : Paging) = context.pagingAt budget offset := by
    rw [context.following_of_idxOf]
    rfl
  have hopened := @shows_openExpansion context digest budget offset (decide (offset ≠ 0))
  obtain ⟨hwhole, hwholePage⟩ := @Shows.setAnchorPage _ _ (context.pagingAt budget offset)
    context.anchor.project.cleared _ hopened rfl (context.pagingAt budget offset).remaining.length
  obtain ⟨hbase, hsqueezed, hsqueezedPage⟩ := @Shows.squeeze _ _ (context.pagingAt budget offset)
    context.anchor.project.cleared _ hwhole rfl rfl
  have hremaining : drop (min offset context.anchor.project.content.length)
      context.anchor.project.content = (context.pagingAt budget offset).remaining := rfl
  unfold expandAnchor at hpage
  simp only [hpaging] at hpage
  simp only [hremaining] at hpage
  generalize hstart : (if (context.pagingAt budget offset).fits _ = true then _ else _ :
    Expansion × ShownItem) = start at hpage
  have hstarted : start.2.frame = context.anchor.frame ∧
      Shows context (context.headerAt digest offset) start.1 ∧
        Page (context.pagingAt budget offset) (context.pagingAt budget offset).remaining.length
          start.1 := by
    rw [← hstart]
    split
    · exact ⟨rfl, hwhole, hwholePage⟩
    · exact ⟨hbase, hsqueezed, hsqueezedPage⟩
  obtain ⟨hframe, hshows, hsegment⟩ := hstarted
  cases hcut : (context.pagingAt budget offset).cutAnchor start.2
      ((context.pagingAt budget offset).withoutMemories start.1) with
  | error payload =>
    rw [hcut] at hpage
    cases hpage
  | ok cut =>
    obtain ⟨cut, low⟩ := cut
    obtain ⟨hcutShows, hcutPage, hlow⟩ :=
      hshows.withoutMemories.cutAnchor hframe hsegment.withoutMemories hcut
    have hfilled : Shows context (context.headerAt digest offset)
          (if cut.hasMore = true ∨ decide (offset ≠ 0) = true then cut
            else fillNeighbors budget (fullContent context.projected) cut) ∧
        Page (context.pagingAt budget offset) low
          (if cut.hasMore = true ∨ decide (offset ≠ 0) = true then cut
            else fillNeighbors budget (fullContent context.projected) cut) := by
      split
      · exact ⟨hcutShows, hcutPage⟩
      · exact hcutShows.fillNeighbors hcutPage
    rw [hcut] at hpage
    simp only at hpage
    generalize (if cut.hasMore = true ∨ decide (offset ≠ 0) = true then cut
      else fillNeighbors budget (fullContent context.projected) cut) = filled at hpage hfilled
    by_cases hroom : (context.pagingAt budget offset).remaining ≠ "" ∧ low = 0
    · rw [if_pos hroom] at hpage
      cases hpage
    · by_cases hsize : budget < filled.size
      · rw [if_neg hroom, if_pos hsize] at hpage
        cases hpage
      · rw [if_neg hroom, if_neg hsize] at hpage
        obtain rfl := ExpansionResult.page.inj hpage
        have hpositive : (context.pagingAt budget offset).remaining ≠ "" → 0 < low :=
          fun hnonempty => Nat.pos_of_ne_zero fun hzero => hroom ⟨hnonempty, hzero⟩
        exact ⟨hfilled.1, not_lt.mp hsize, low, hfilled.2, hlow, hpositive⟩

theorem cutAnchor_eq_error {payload : ErrorPayload} (hcut : paging.cutAnchor base out = .error payload) :
    payload = overBudget ∨ payload = smallBudget := by
  unfold Paging.cutAnchor at hcut
  split at hcut
  · cases hcut
  · simp only at hcut
    split at hcut
    · cases hcut
    · cases hcut
      split
      · exact Or.inl rfl
      · exact Or.inr rfl

theorem size_overBudget : overBudget.size ≤ expansionMinChars := by decide +kernel

theorem size_smallBudget : smallBudget.size ≤ expansionMinChars := by decide +kernel

theorem size_staleRevision : staleRevision.size ≤ expansionMinChars := by decide +kernel

theorem expandAnchor_cases (hbudget : expansionMinChars ≤ budget) :
    (∃ payload, expandAnchor digest context.toContext budget offset context.anchor.project
        context.projected = .error payload ∧ payload.size ≤ budget) ∨
      ∃ out, expandAnchor digest context.toContext budget offset context.anchor.project
        context.projected = .page out := by
  unfold expandAnchor
  simp only
  split
  · next payload hcut =>
    refine Or.inl ⟨payload, rfl, ?_⟩
    rcases cutAnchor_eq_error hcut with rfl | rfl
    · exact size_overBudget.trans hbudget
    · exact size_smallBudget.trans hbudget
  · split_ifs
    · exact Or.inl ⟨_, rfl, size_boundedError noRoom (le_trans (by decide) hbudget)⟩
    · exact Or.inl ⟨_, rfl, size_overBudget.trans hbudget⟩
    · exact Or.inr ⟨_, rfl⟩
    · exact Or.inl ⟨_, rfl, size_overBudget.trans hbudget⟩
    · exact Or.inr ⟨_, rfl⟩

end Expanding

section Reading

variable {digest : String → String} {maxChars : ℤ}

/-- The effective budget. -/
def budgetOf (maxChars : ℤ) : ℕ := (min (expansionMaxChars : ℤ) maxChars).toNat

theorem minChars_le_budgetOf (hmax : (expansionMinChars : ℤ) ≤ maxChars) :
    expansionMinChars ≤ budgetOf maxChars := by
  simp only [budgetOf, expansionMinChars, expansionMaxChars] at hmax ⊢
  omega

/-- The call that gets a page of the context. -/
def expandContext (digest : String → String) (context : AnchoredContext) (maxChars : ℤ)
    (contentOffset : ℤ) (contentRevision : Option String) : ExpansionResult :=
  boundedExpansion digest (.ok context.toContext) maxChars contentOffset contentRevision

section

variable (hmax : (expansionMinChars : ℤ) ≤ maxChars) (contentOffset : ℤ)
  (contentRevision : Option String)
include hmax

/-- The checks of a call before the anchor is expanded. -/
theorem expandContext_eq :
    expandContext digest context maxChars contentOffset contentRevision =
      if contentOffset < 0 then .error (boundedError invalidOffset (budgetOf maxChars))
      else if contentOffset ≠ 0 ∧ contentRevision.getD "" = "" then
        .error (boundedError revisionRequired (budgetOf maxChars))
      else if contentOffset ≠ 0 ∧
          contentRevision ≠ some (revisionOf digest context.anchor.content) then
        .error (boundedError staleRevision (budgetOf maxChars))
      else expandAnchor digest context.toContext (budgetOf maxChars) contentOffset.toNat
        context.anchor.project context.projected := by
  have hbudget : ¬ min (expansionMaxChars : ℤ) maxChars < expansionMinChars := by
    simp only [expansionMinChars, expansionMaxChars] at hmax ⊢
    omega
  have hanchor : ((context.toContext.items.map SourceTurn.project).find? ShownItem.isAnchor).or
      (context.toContext.items.map SourceTurn.project).head? = some context.anchor.project :=
    congrArg (fun found : Option ShownItem => found.or _) context.find_anchor
  unfold expandContext boundedExpansion
  simp only
  rw [if_neg hbudget, hanchor]
  rfl

/-- A call is refused, or it expands the anchor at its offset. -/
theorem expandContext_cases :
    (∃ payload, expandContext digest context maxChars contentOffset contentRevision =
        .error payload ∧ payload.size ≤ budgetOf maxChars) ∨
      expandContext digest context maxChars contentOffset contentRevision =
        expandAnchor digest context.toContext (budgetOf maxChars) contentOffset.toNat
          context.anchor.project context.projected := by
  have hbudget : 2 ≤ budgetOf maxChars := le_trans (by decide) (minChars_le_budgetOf hmax)
  rw [expandContext_eq hmax]
  split_ifs
  · exact Or.inl ⟨_, rfl, size_boundedError _ hbudget⟩
  · exact Or.inl ⟨_, rfl, size_boundedError _ hbudget⟩
  · exact Or.inl ⟨_, rfl, size_boundedError _ hbudget⟩
  · exact Or.inr rfl

end

theorem revisionOf_ne_empty (digest : String → String) (content : String) :
    revisionOf digest content ≠ "" := by
  intro hempty
  have hlist := congrArg String.toList hempty
  rw [revisionOf, String.toList_append] at hlist
  exact List.cons_ne_nil _ _ hlist

theorem expandContext_current (hmax : (expansionMinChars : ℤ) ≤ maxChars) (offset : ℕ)
    {contentRevision : Option String}
    (hrevision : offset ≠ 0 → contentRevision = some (revisionOf digest context.anchor.content)) :
    expandContext digest context maxChars offset contentRevision =
      expandAnchor digest context.toContext (budgetOf maxChars) offset context.anchor.project
        context.projected := by
  rw [expandContext_eq hmax, if_neg (not_lt.mpr (Int.natCast_nonneg offset)), if_neg, if_neg,
    Int.toNat_natCast]
  · rintro ⟨hoffset, hother⟩
    exact hother (hrevision (Int.natCast_ne_zero.mp hoffset))
  · rintro ⟨hoffset, hempty⟩
    rw [hrevision (Int.natCast_ne_zero.mp hoffset), Option.getD_some] at hempty
    exact revisionOf_ne_empty digest context.anchor.content hempty

theorem expandContext_stale (hmax : (expansionMinChars : ℤ) ≤ maxChars) {offset : ℕ}
    (hoffset : 0 < offset) {other : String}
    (hother : digest other ≠ digest context.anchor.content) :
    expandContext digest context maxChars offset (some (revisionOf digest other)) =
      .error staleRevision := by
  have hnonzero : (offset : ℤ) ≠ 0 := Int.natCast_ne_zero.mpr hoffset.ne'
  have hdiffers : some (revisionOf digest other) ≠
      some (revisionOf digest context.anchor.content) := by
    intro hsame
    have hlists := congrArg String.toList (Option.some.inj hsame)
    rw [revisionOf, revisionOf, String.toList_append, String.toList_append] at hlists
    exact hother (String.toList_inj.mp (List.append_cancel_left hlists))
  rw [expandContext_eq hmax, if_neg (not_lt.mpr (Int.natCast_nonneg offset)), if_neg,
    if_pos ⟨hnonzero, hdiffers⟩]
  · rw [boundedError_of_fits (size_staleRevision.trans (minChars_le_budgetOf hmax))]
  · rintro ⟨-, hempty⟩
    exact revisionOf_ne_empty digest other hempty

/-- What a reader gets who follows the offsets: the pages, and the error that ends them,
if there is one. -/
inductive Reading (digest : String → String) (context : AnchoredContext) (maxChars : ℤ) :
    ℕ → Option String → List Expansion → Option ErrorPayload → Prop
  | refused {offset : ℕ} {revision payload} :
      expandContext digest context maxChars offset revision = .error payload →
        Reading digest context maxChars offset revision [] (some payload)
  | last {offset : ℕ} {revision out} :
      expandContext digest context maxChars offset revision = .page out → out.nextOffset = none →
        Reading digest context maxChars offset revision [out] none
  | more {offset : ℕ} {revision out next pages ending} :
      expandContext digest context maxChars offset revision = .page out →
        out.nextOffset = some next →
          Reading digest context maxChars next (some out.contentRevision) pages ending →
            Reading digest context maxChars offset revision (out :: pages) ending

/-- A page at an offset holds the segment up to the next offset. -/
theorem page_segment (hmax : (expansionMinChars : ℤ) ≤ maxChars) {offset : ℕ}
    {contentRevision : Option String} (hoffset : offset ≤ context.anchor.content.length)
    (hrevision : offset ≠ 0 → contentRevision = some (revisionOf digest context.anchor.content))
    (hpage : expandContext digest context maxChars offset contentRevision = .page out) :
    ∃ low, out.anchorContent = take low (drop offset context.anchor.content) ∧
      out.contentRevision = revisionOf digest context.anchor.content ∧
        low ≤ context.anchor.content.length - offset ∧
          (offset < context.anchor.content.length → 0 < low) ∧
            out.nextOffset =
              if offset + low < context.anchor.content.length then some (offset + low) else none := by
  rw [expandContext_current hmax offset hrevision] at hpage
  obtain ⟨hshows, -, low, hpage, hlow, hpositive⟩ := page_of_expandAnchor hpage
  have hmin : min offset context.anchor.content.length = offset := min_eq_left hoffset
  obtain ⟨base, hanchor⟩ := hpage.anchor
  have hremaining : (context.pagingAt (budgetOf maxChars) offset).remaining =
      drop offset context.anchor.content := congrArg (drop · context.anchor.content) hmin
  have hlength : (context.pagingAt (budgetOf maxChars) offset).remaining.length =
      context.anchor.content.length - offset := by
    rw [hremaining, length_drop]
  refine ⟨low, ?_, congrArg (fun header => header.2.2) hshows.header, hlength ▸ hlow,
    fun hbefore => hpositive fun hempty => ?_, ?_⟩
  · rw [Expansion.anchorContent, hanchor, ← hremaining]
    rfl
  · rw [hempty] at hlength
    have hzero : "".length = 0 := rfl
    omega
  · have hpaged : (context.pagingAt (budgetOf maxChars) offset).offset = offset := hmin
    have hnext := hpage.nextOffset
    rw [hpaged] at hnext
    exact hnext

variable {pages : List Expansion} {ending : Option ErrorPayload}

section

variable {offset : ℕ} {revision : Option String} (hmax : (expansionMinChars : ℤ) ≤ maxChars)
include hmax

/-- A reading from an offset gives what is left of the content, unless it is refused. -/
theorem Reading.contents (hreading : Reading digest context maxChars offset revision pages ending)
    (hoffset : offset ≤ context.anchor.content.length)
    (hrevision : offset ≠ 0 → revision = some (revisionOf digest context.anchor.content))
    (hcomplete : ending = none) :
    String.join (pages.map Expansion.anchorContent) = drop offset context.anchor.content := by
  induction hreading with
  | refused hcall => cases hcomplete
  | last hcall hnone =>
    obtain ⟨low, hcontent, -, -, -, hnext⟩ := page_segment hmax hoffset hrevision hcall
    rw [hnone] at hnext
    rw [List.map_cons, List.map_nil, String.join_cons, String.join_nil, String.append_empty,
      hcontent]
    refine take_of_length_le ?_
    rw [length_drop]
    by_contra hshort
    rw [if_pos (by omega)] at hnext
    cases hnext
  | more hcall hsome _ ih =>
    obtain ⟨low, hcontent, hcurrent, hlow, -, hnext⟩ := page_segment hmax hoffset hrevision hcall
    rw [hsome] at hnext
    split at hnext
    · next hbefore =>
      cases hnext
      have hrest := ih hbefore.le (fun _ => by rw [hcurrent]) hcomplete
      rw [List.map_cons, String.join_cons, hrest, hcontent, ← drop_drop, take_append_drop]
    · cases hnext

theorem Reading.nonempty (hreading : Reading digest context maxChars offset revision pages ending)
    (hoffset : offset < context.anchor.content.length)
    (hrevision : offset ≠ 0 → revision = some (revisionOf digest context.anchor.content)) :
    ∀ page ∈ pages, page.anchorContent ≠ "" := by
  have hsegment : ∀ {offset : ℕ} {revision : Option String} {out : Expansion},
      offset < context.anchor.content.length →
        (offset ≠ 0 → revision = some (revisionOf digest context.anchor.content)) →
          expandContext digest context maxChars offset revision = .page out →
            out.anchorContent ≠ "" := by
    intro offset revision out hoffset hrevision hcall
    obtain ⟨low, hcontent, -, hlow, hpositive, -⟩ := page_segment hmax hoffset.le hrevision hcall
    have hlow := hpositive hoffset
    rw [hcontent, ne_eq, ← String.length_eq_zero_iff, length_take, length_drop]
    omega
  induction hreading with
  | refused hcall => exact List.forall_mem_nil _
  | last hcall hnone => exact List.forall_mem_singleton.mpr (hsegment hoffset hrevision hcall)
  | more hcall hsome _ ih =>
    obtain ⟨low, -, hcurrent, -, -, hnext⟩ := page_segment hmax hoffset.le hrevision hcall
    rw [hsome] at hnext
    split at hnext
    · next hbefore =>
      cases hnext
      exact List.forall_mem_cons.mpr ⟨hsegment hoffset hrevision hcall,
        ih hbefore (fun _ => by rw [hcurrent])⟩
    · cases hnext

theorem exists_reading (hoffset : offset ≤ context.anchor.content.length)
    (hrevision : offset ≠ 0 → revision = some (revisionOf digest context.anchor.content)) :
    ∃ pages ending, Reading digest context maxChars offset revision pages ending := by
  induction hleft : context.anchor.content.length - offset using Nat.strong_induction_on
    generalizing offset revision with
  | h left ih =>
    have hcall := expandContext_current hmax offset hrevision
    rcases @expandAnchor_cases context digest (budgetOf maxChars) offset
      (minChars_le_budgetOf hmax) with ⟨payload, herror, -⟩ | ⟨out, hpage⟩
    · exact ⟨[], some payload, .refused (hcall.trans herror)⟩
    · have hpaged := hcall.trans hpage
      obtain ⟨low, -, hcurrent, -, hpositive, hnext⟩ :=
        page_segment hmax hoffset hrevision hpaged
      by_cases hmore : offset + low < context.anchor.content.length
      · rw [if_pos hmore] at hnext
        have hlow := hpositive (by omega)
        obtain ⟨pages, ending, hrest⟩ := @ih (context.anchor.content.length - (offset + low))
          (by omega) (offset + low) (some out.contentRevision) hmore.le
          (fun _ => by rw [hcurrent]) rfl
        exact ⟨out :: pages, ending, .more hpaged hnext hrest⟩
      · rw [if_neg hmore] at hnext
        exact ⟨[out], none, .last hpaged hnext⟩

end

/-- Source expansion paging. -/
theorem expansion_paging (digest : String → String) (context : AnchoredContext) {maxChars : ℤ}
    (hmax : (expansionMinChars : ℤ) ≤ maxChars) :
    (∀ contentOffset contentRevision,
      ((expandContext digest context maxChars contentOffset contentRevision).size : ℤ) ≤
        min (expansionMaxChars : ℤ) maxChars) ∧
    (∀ revision, ∃ pages ending, Reading digest context maxChars 0 revision pages ending) ∧
    (∀ revision pages ending, Reading digest context maxChars 0 revision pages ending →
      (context.anchor.content ≠ "" → ∀ page ∈ pages, page.anchorContent ≠ "") ∧
        (ending = none →
          String.join (pages.map Expansion.anchorContent) = context.anchor.content)) ∧
    (∀ contentOffset contentRevision out,
      expandContext digest context maxChars contentOffset contentRevision = .page out →
        ∃ skipped kept, Window context skipped kept out) ∧
    (∀ offset other, 0 < offset → digest other ≠ digest context.anchor.content →
      expandContext digest context maxChars (offset : ℕ) (some (revisionOf digest other)) =
        .error staleRevision) := by
  refine ⟨fun contentOffset contentRevision => ?_, fun revision => ?_,
    fun revision pages ending hreading => ⟨fun hcontent => ?_, fun hcomplete => ?_⟩,
    fun contentOffset contentRevision out hpage => ?_,
    fun offset other hoffset hother => expandContext_stale hmax hoffset hother⟩
  · have hbudget : ((budgetOf maxChars : ℕ) : ℤ) = min (expansionMaxChars : ℤ) maxChars := by
      simp only [budgetOf, expansionMinChars, expansionMaxChars] at hmax ⊢
      omega
    rw [← hbudget, Int.ofNat_le]
    rcases @expandContext_cases context digest maxChars hmax contentOffset contentRevision with
      ⟨payload, hcall, hsize⟩ | hcall
    · rw [hcall]
      exact hsize
    · rw [hcall]
      rcases @expandAnchor_cases context digest (budgetOf maxChars) contentOffset.toNat
        (minChars_le_budgetOf hmax) with ⟨payload, herror, hsize⟩ | ⟨out, hpage⟩
      · rw [herror]
        exact hsize
      · rw [hpage]
        exact (page_of_expandAnchor hpage).2.1
  · exact exists_reading hmax (Nat.zero_le _) fun hzero => absurd rfl hzero
  · have hlength : 0 < context.anchor.content.length :=
      Nat.pos_of_ne_zero fun hzero => hcontent (String.length_eq_zero_iff.mp hzero)
    exact hreading.nonempty hmax hlength fun hzero => absurd rfl hzero
  · rw [hreading.contents hmax (Nat.zero_le _) (fun hzero => absurd rfl hzero) hcomplete, drop_zero]
  · rcases @expandContext_cases context digest maxChars hmax contentOffset contentRevision with
      ⟨payload, hcall, -⟩ | hcall
    · rw [hcall] at hpage
      cases hpage
    · rw [hcall] at hpage
      exact (page_of_expandAnchor hpage).1.window

def exampleTurn (sourceItemId : String) (isAnchor : Bool) (content : String) : SourceTurn where
  sourceItemId := sourceItemId
  isAnchor := isAnchor
  role := some "user"
  occurredAt := none
  recordedAt := none
  recordedAtSource := none
  historicalUpdates := []
  historicalUpdatesOmitted := 0
  content := content

def exampleContext : AnchoredContext where
  preceding := []
  anchor := exampleTurn "source-1" true "question"
  following := [exampleTurn "source-2" false "answer"]
  supportedMemories := none
  parentLookupId := none
  nextSourceItemId := some "source-3"
  anchored := rfl
  unanchored := by decide
  distinct := by decide
  fresh := by decide

def exampleDigest (content : String) : String :=
  if content = "question" then "1f5087db919ced5c123c7f507d3fcce818cb0cf6e77c2f95a8a35e951e03fdb9"
  else if content = "answer" then "0db52f4076c082518412afd3dd3576e2cb0c63703fd7fed5e23ade60efef31d9"
  else ""

/-- The first page, the reading, and the continuation with the other revision. -/
theorem expansion_paging_example :
    (∃ pages ending, Reading exampleDigest exampleContext 256 0 none pages ending) ∧
      expandContext exampleDigest exampleContext 256 (1 : ℕ)
          (some (revisionOf exampleDigest "answer")) = .error staleRevision := by
  obtain ⟨-, hreading, -, -, hstale⟩ :=
    @expansion_paging exampleDigest exampleContext 256 (by decide)
  exact ⟨hreading none, hstale 1 "answer" (by decide) (by decide)⟩

end Reading

end Pallium.Expansion
