import Pallium.Expansion.Bounded

/-!
# The turns that a page shows

The items of a page are the anchor and a run of the turns around it.  Trimming and
filling leave this window as it is; dropping the farthest item takes a turn from one
of its ends, and the navigation id follows.
-/

namespace Pallium.Expansion

open Text

/-- What identifies an item: everything but its updates and its content. -/
def ShownItem.frame (item : ShownItem) : ShownItem :=
  { item with
    historicalUpdates := []
    historicalUpdatesOmitted := 0
    content := ""
    contentTruncated := none }

def SourceTurn.frame (turn : SourceTurn) : ShownItem := turn.project.frame

/-- A context with its anchor, as the service returns it: the ids are distinct, and
the navigation id is none of the turns after the anchor. -/
structure AnchoredContext where
  preceding : List SourceTurn
  anchor : SourceTurn
  following : List SourceTurn
  supportedMemories : Option (List SupportedMemory)
  parentLookupId : Option String
  nextSourceItemId : Option String
  anchored : anchor.isAnchor = true
  unanchored : ∀ turn ∈ preceding ++ following, turn.isAnchor = false
  distinct : ((preceding ++ anchor :: following).map SourceTurn.sourceItemId).Nodup
  fresh : ∀ id, nextSourceItemId = some id → id ∉ following.map SourceTurn.sourceItemId

namespace AnchoredContext

variable (context : AnchoredContext)

def toContext : SourceContext where
  items := context.preceding ++ context.anchor :: context.following
  supportedMemories := context.supportedMemories
  parentLookupId := context.parentLookupId
  nextSourceItemId := context.nextSourceItemId

/-- The anchor between the nearest turns: the farthest of those before it are skipped,
and only so many of those after it are kept. -/
def shown (skipped kept : ℕ) : List SourceTurn :=
  context.preceding.drop skipped ++ context.anchor :: context.following.take kept

/-- The first turn behind the shown ones, or else the navigation id of the service. -/
def navigation (kept : ℕ) : Option String :=
  ((context.following.drop kept).head?.map SourceTurn.sourceItemId).or context.nextSourceItemId

def followingIds : List String := context.following.map SourceTurn.sourceItemId

end AnchoredContext

/-- The page shows this window of the context, and says where to go on. -/
structure Window (context : AnchoredContext) (skipped kept : ℕ) (out : Expansion) : Prop where
  items : out.items.map ShownItem.frame = (context.shown skipped kept).map SourceTurn.frame
  skipped_le : skipped ≤ context.preceding.length
  kept_le : kept ≤ context.following.length
  navigation : out.nextSourceItemId = context.navigation kept

section Frames

theorem findIdx_frame (items : List ShownItem) :
    (items.map ShownItem.frame).findIdx ShownItem.isAnchor =
      items.findIdx ShownItem.isAnchor := by
  rw [List.findIdx_map]
  rfl

theorem map_frame_modify {change : ShownItem → ShownItem}
    (hchange : ∀ item, (change item).frame = item.frame) (items : List ShownItem) (index : ℕ) :
    (items.modify index change).map ShownItem.frame = items.map ShownItem.frame := by
  induction items generalizing index with
  | nil => simp
  | cons head rest ih =>
    cases index with
    | zero => simp [hchange head]
    | succ index => simp [ih index]

theorem map_frame_set {items : List ShownItem} {index : ℕ} {original item : ShownItem}
    (horiginal : items[index]? = some original) (hframe : item.frame = original.frame) :
    (items.set index item).map ShownItem.frame = items.map ShownItem.frame := by
  induction items generalizing index with
  | nil => cases horiginal
  | cons head rest ih =>
    cases index with
    | zero =>
      cases horiginal
      simp [hframe]
    | succ index => simpa using ih horiginal

end Frames

namespace Window

variable {context : AnchoredContext} {skipped kept : ℕ} {out next : Expansion}

variable (hwindow : Window context skipped kept out) {index : ℕ}
include hwindow

theorem congr (hitems : next.items.map ShownItem.frame = out.items.map ShownItem.frame)
    (hnavigation : next.nextSourceItemId = out.nextSourceItemId) :
    Window context skipped kept next where
  items := hitems.trans hwindow.items
  skipped_le := hwindow.skipped_le
  kept_le := hwindow.kept_le
  navigation := hnavigation.trans hwindow.navigation

theorem length_items :
    out.items.length = (context.preceding.length - skipped) + 1 + kept := by
  have hlength := congrArg List.length hwindow.items
  rw [List.length_map, List.length_map, AnchoredContext.shown, List.length_append,
    List.length_drop, List.length_cons, List.length_take] at hlength
  have hkept := hwindow.kept_le
  omega

theorem getElem_frame (hindex : index < out.items.length) :
    some out.items[index].frame = ((context.shown skipped kept)[index]?).map SourceTurn.frame := by
  have hmapped := congrArg (fun frames => frames[index]?) hwindow.items
  simp only [List.getElem?_map] at hmapped
  rw [List.getElem?_eq_getElem hindex, Option.map_some] at hmapped
  exact hmapped

theorem findIdx_anchor :
    out.items.findIdx ShownItem.isAnchor = context.preceding.length - skipped := by
  rw [← findIdx_frame, hwindow.items, List.findIdx_map, AnchoredContext.shown,
    List.findIdx_append, List.findIdx_cons]
  have hbefore : (context.preceding.drop skipped).findIdx
      (ShownItem.isAnchor ∘ SourceTurn.frame) = (context.preceding.drop skipped).length := by
    refine List.findIdx_eq_length.mpr fun turn hturn => ?_
    exact context.unanchored turn (List.mem_append_left _ (List.mem_of_mem_drop hturn))
  have hanchor : (ShownItem.isAnchor ∘ SourceTurn.frame) context.anchor = true := context.anchored
  rw [hbefore, if_neg (lt_irrefl _), hanchor, List.length_drop]
  simp

theorem anchor_lt :
    context.preceding.length - skipped < out.items.length := by
  rw [hwindow.length_items]
  omega

theorem exists_anchor :
    ∃ item, out.items[context.preceding.length - skipped]? = some item ∧
      item.frame = context.anchor.frame := by
  have hframe := hwindow.getElem_frame hwindow.anchor_lt
  rw [AnchoredContext.shown, List.getElem?_append_right (by rw [List.length_drop]),
    List.length_drop, Nat.sub_self] at hframe
  exact ⟨_, List.getElem?_eq_getElem hwindow.anchor_lt, Option.some.inj hframe⟩

theorem frame_of_anchor {item : ShownItem}
    (hitem : item ∈ out.items) (hanchor : item.isAnchor = true) :
    item.frame = context.anchor.frame := by
  have hframe : item.frame ∈ (context.shown skipped kept).map SourceTurn.frame :=
    hwindow.items ▸ List.mem_map_of_mem hitem
  obtain ⟨turn, hturn, hsame⟩ := List.mem_map.mp hframe
  have hflag : turn.isAnchor = true := (congrArg ShownItem.isAnchor hsame).trans hanchor
  rcases List.mem_append.mp hturn with hbefore | hafter
  · have hnot := context.unanchored turn (List.mem_append_left _ (List.mem_of_mem_drop hbefore))
    rw [hnot] at hflag
    cases hflag
  · rcases List.mem_cons.mp hafter with rfl | hafter
    · exact hsame.symm
    · have hnot := context.unanchored turn (List.mem_append_right _ (List.mem_of_mem_take hafter))
      rw [hnot] at hflag
      cases hflag

theorem ids :
    out.items.map ShownItem.sourceItemId =
      (context.shown skipped kept).map SourceTurn.sourceItemId := by
  have hids := congrArg (List.map ShownItem.sourceItemId) hwindow.items
  rw [List.map_map, List.map_map] at hids
  exact hids

theorem nodup_items : out.items.Nodup := by
  have hsublist : (context.shown skipped kept).Sublist
      (context.preceding ++ context.anchor :: context.following) :=
    (List.drop_sublist _ _).append ((List.take_sublist _ _).cons_cons _)
  have hids : (out.items.map ShownItem.sourceItemId).Nodup :=
    hwindow.ids ▸ context.distinct.sublist (hsublist.map _)
  exact hids.of_map _

theorem isAnchor_iff (hindex : index < out.items.length) :
    out.items[index].isAnchor = true ↔ index = context.preceding.length - skipped := by
  have hfirst := hwindow.findIdx_anchor
  obtain ⟨anchor, hanchor, hframe⟩ := hwindow.exists_anchor
  constructor
  · intro hflag
    have hsame := hwindow.frame_of_anchor (List.getElem_mem hindex) hflag
    obtain ⟨hplace, hget⟩ := List.getElem?_eq_some_iff.mp hanchor
    have hids : (out.items.map ShownItem.sourceItemId).Nodup :=
      hwindow.ids ▸ context.distinct.sublist
        (((List.drop_sublist _ _).append ((List.take_sublist _ _).cons_cons _)).map _)
    have hid : out.items[index].sourceItemId =
        out.items[context.preceding.length - skipped].sourceItemId := by
      have hframes := congrArg ShownItem.sourceItemId (hsame.trans hframe.symm)
      rw [hget]
      exact hframes
    have hinjective := @List.Nodup.getElem_inj_iff _ _ hids index
      (by rwa [List.length_map]) (context.preceding.length - skipped) (by rwa [List.length_map])
    simp only [List.getElem_map] at hinjective
    exact hinjective.mp hid
  · rintro rfl
    obtain ⟨hplace, hget⟩ := List.getElem?_eq_some_iff.mp hanchor
    rw [hget]
    exact (congrArg ShownItem.isAnchor hframe).trans context.anchored

end Window

section Dropping

variable {context : AnchoredContext} {skipped kept : ℕ} {out : Expansion}

theorem Window.farness (hwindow : Window context skipped kept out) {index : ℕ}
    (hindex : index < out.items.length) : Expansion.farness out.items out.items[index] =
      toLex (((index : ℤ) - (context.preceding.length - skipped : ℕ)).natAbs, index) := by
  rw [Expansion.farness, hwindow.nodup_items.idxOf_getElem index hindex, hwindow.findIdx_anchor]

theorem Window.farthest (hwindow : Window context skipped kept out) {item : ShownItem}
    (hfarthest : Expansion.farthest out.items = some item) :
    ∃ index, ∃ hindex : index < out.items.length, out.items[index] = item ∧
      (context.preceding.length - skipped ≤ kept ∧ 0 < kept ∧ index + 1 = out.items.length ∨
        kept < context.preceding.length - skipped ∧ index = 0) := by
  obtain ⟨index, hindex, rfl⟩ := List.mem_iff_getElem.mp (mem_of_farthest hfarthest)
  refine ⟨index, hindex, rfl, ?_⟩
  have hneighbor := (List.mem_filter.mp (List.argmax_mem hfarthest)).2
  have hplace : index ≠ context.preceding.length - skipped := fun hsame => by
    rw [(hwindow.isAnchor_iff hindex).mpr hsame] at hneighbor
    cases hneighbor
  have hfar : ∀ other (hother : other < out.items.length),
      other ≠ context.preceding.length - skipped →
        ((other : ℤ) - (context.preceding.length - skipped : ℕ)).natAbs <
            ((index : ℤ) - (context.preceding.length - skipped : ℕ)).natAbs ∨
          ((other : ℤ) - (context.preceding.length - skipped : ℕ)).natAbs =
            ((index : ℤ) - (context.preceding.length - skipped : ℕ)).natAbs ∧ other ≤ index := by
    intro other hother hneighbor
    have hmem : out.items[other] ∈ out.items.filter fun item => !item.isAnchor := by
      refine List.mem_filter.mpr ⟨List.getElem_mem hother, ?_⟩
      rw [Bool.not_eq_true', Bool.eq_false_iff]
      exact fun hflag => hneighbor ((hwindow.isAnchor_iff hother).mp hflag)
    have hle := List.le_of_mem_argmax hmem hfarthest
    rw [hwindow.farness hother, hwindow.farness hindex, Prod.Lex.toLex_le_toLex] at hle
    exact hle
  have hlength := hwindow.length_items
  by_cases hside : context.preceding.length - skipped ≤ kept
  · have hkept : 0 < kept := by omega
    have hlast := hfar (out.items.length - 1) (by omega) (by omega)
    exact Or.inl ⟨hside, hkept, by omega⟩
  · have hfirst := hfar 0 (by omega) (by omega)
    exact Or.inr ⟨not_le.mp hside, by omega⟩

section

variable (context : AnchoredContext)

theorem AnchoredContext.shown_eraseIdx_zero {skipped : ℕ} (kept : ℕ)
    (hskipped : skipped < context.preceding.length) :
    (context.shown skipped kept).eraseIdx 0 = context.shown (skipped + 1) kept := by
  rw [AnchoredContext.shown, List.drop_eq_getElem_cons hskipped]
  rfl

theorem AnchoredContext.shown_eraseIdx_last (skipped : ℕ) {kept : ℕ}
    (hkept : kept < context.following.length) :
    (context.shown skipped (kept + 1)).eraseIdx ((context.shown skipped (kept + 1)).length - 1) =
      context.shown skipped kept := by
  rw [List.eraseIdx_length_sub_one, AnchoredContext.shown, List.dropLast_append_cons,
    List.take_succ_eq_append_getElem hkept, ← List.cons_append, List.dropLast_concat,
    AnchoredContext.shown]

theorem AnchoredContext.nodup_followingIds :
    context.followingIds.Nodup := by
  have hsublist : context.following.Sublist
      (context.preceding ++ context.anchor :: context.following) :=
    (List.sublist_cons_self _ _).trans (List.sublist_append_right _ _)
  exact context.distinct.sublist (hsublist.map _)

theorem AnchoredContext.navigation_of_lt {kept : ℕ}
    (hkept : kept < context.following.length) :
    context.navigation kept = some context.following[kept].sourceItemId := by
  rw [AnchoredContext.navigation, List.head?_drop, List.getElem?_eq_getElem hkept]
  rfl

theorem AnchoredContext.navigation_all :
    context.navigation context.following.length = context.nextSourceItemId := by
  rw [AnchoredContext.navigation, List.drop_length]
  rfl

theorem navigated_following {kept : ℕ}
    (hkept : kept < context.following.length) :
    navigated context.followingIds context.following[kept].sourceItemId
      (context.navigation (kept + 1)) = context.navigation kept := by
  have hids : ∀ index (hindex : index < context.following.length),
      context.followingIds.idxOf context.following[index].sourceItemId = index := by
    intro index hindex
    have hplace := context.nodup_followingIds.idxOf_getElem index
      (by rwa [AnchoredContext.followingIds, List.length_map])
    simp only [AnchoredContext.followingIds, List.getElem_map] at hplace
    exact hplace
  have hmem : ∀ index (hindex : index < context.following.length),
      context.following[index].sourceItemId ∈ context.followingIds :=
    fun index hindex => List.mem_map_of_mem (List.getElem_mem hindex)
  rw [context.navigation_of_lt hkept]
  unfold navigated
  rw [if_pos (hmem kept hkept)]
  by_cases hlast : kept + 1 < context.following.length
  · rw [context.navigation_of_lt hlast]
    simp only
    rw [if_pos (Or.inr (by rw [hids kept hkept, hids (kept + 1) hlast]; omega))]
  · have hall : kept + 1 = context.following.length := by omega
    rw [hall, context.navigation_all]
    cases hnext : context.nextSourceItemId with
    | none => rfl
    | some id =>
      simp only
      exact if_pos (Or.inl (context.fresh id hnext))

theorem navigated_preceding {skipped : ℕ}
    (hskipped : skipped < context.preceding.length) (current : Option String) :
    navigated context.followingIds context.preceding[skipped].sourceItemId current = current := by
  refine if_neg fun hmem => ?_
  have hdistinct := context.distinct
  rw [List.map_append, List.map_cons] at hdistinct
  have hdisjoint := List.disjoint_of_nodup_append hdistinct
  exact hdisjoint (List.mem_map_of_mem (List.getElem_mem hskipped))
    (List.mem_cons_of_mem _ hmem)

end

theorem Window.dropItem (hwindow : Window context skipped kept out) {item : ShownItem}
    (hfarthest : Expansion.farthest out.items = some item) :
    ∃ skipped kept, Window context skipped kept
      (Expansion.dropItem context.followingIds item out) := by
  obtain ⟨index, hindex, rfl, hcases⟩ := hwindow.farthest hfarthest
  have hlength := hwindow.length_items
  have hframe := hwindow.getElem_frame hindex
  have herased : (out.items.erase out.items[index]).map ShownItem.frame =
      ((context.shown skipped kept).eraseIdx index).map SourceTurn.frame := by
    rw [hwindow.nodup_items.erase_getElem index hindex, ← List.eraseIdx_map, hwindow.items,
      List.eraseIdx_map]
  rcases hcases with ⟨-, hkept, hlast⟩ | ⟨hskipped, hfirst⟩
  · obtain ⟨fewer, rfl⟩ : ∃ fewer, kept = fewer + 1 := ⟨kept - 1, by omega⟩
    have hshorter : fewer < context.following.length := hwindow.kept_le
    have hshown : (context.shown skipped (fewer + 1)).length = out.items.length := by
      rw [← List.length_map ShownItem.frame, hwindow.items, List.length_map]
    have hplace : index = (context.shown skipped (fewer + 1)).length - 1 := by omega
    have hturn : (context.shown skipped (fewer + 1))[index]? =
        some context.following[fewer] := by
      rw [AnchoredContext.shown, List.getElem?_append_right (by rw [List.length_drop]; omega),
        List.length_drop, show index - (context.preceding.length - skipped) = fewer + 1 by omega,
        List.getElem?_cons_succ, List.getElem?_take_of_lt (Nat.lt_succ_self fewer),
        List.getElem?_eq_getElem hshorter]
    rw [hturn] at hframe
    have hid := congrArg ShownItem.sourceItemId (Option.some.inj hframe)
    refine ⟨skipped, fewer, ?_, hwindow.skipped_le, hshorter.le, ?_⟩
    · refine herased.trans ?_
      rw [hplace, context.shown_eraseIdx_last skipped hshorter]
    · change navigated context.followingIds out.items[index].sourceItemId _ = _
      have hsource : out.items[index].sourceItemId = context.following[fewer].sourceItemId := hid
      rw [hwindow.navigation, hsource, navigated_following context hshorter]
  · have hbefore : skipped < context.preceding.length := by omega
    have hturn : (context.shown skipped kept)[index]? = some context.preceding[skipped] := by
      rw [hfirst, AnchoredContext.shown, List.drop_eq_getElem_cons hbefore]
      rfl
    rw [hturn] at hframe
    have hid := congrArg ShownItem.sourceItemId (Option.some.inj hframe)
    refine ⟨skipped + 1, kept, ?_, hbefore, hwindow.kept_le, ?_⟩
    · refine herased.trans ?_
      rw [hfirst, context.shown_eraseIdx_zero kept hbefore]
    · change navigated context.followingIds out.items[index].sourceItemId _ = _
      have hsource : out.items[index].sourceItemId = context.preceding[skipped].sourceItemId := hid
      rw [hsource, navigated_preceding context hbefore, hwindow.navigation]

theorem Window.dropFarthest (hwindow : Window context skipped kept out) (budget : ℕ) :
    ∃ skipped kept, Window context skipped kept
      (Expansion.dropFarthest budget context.followingIds out) := by
  fun_induction Expansion.dropFarthest budget context.followingIds out generalizing skipped kept with
  | case1 out hdone => exact ⟨skipped, kept, hwindow⟩
  | case2 out hmore hnone => exact ⟨skipped, kept, hwindow⟩
  | case3 out hmore item hfarthest ih =>
    obtain ⟨skipped, kept, hdropped⟩ := hwindow.dropItem hfarthest
    exact ih hdropped

end Dropping

end Pallium.Expansion
