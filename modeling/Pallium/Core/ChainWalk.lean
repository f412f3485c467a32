import Mathlib

/-!
# Walking a chain of unique successors

A walk follows the only successor of a node, to nodes that it admits, for at most a number
of hops.  It stops at a node without successors or with several, before a node it has seen
or does not admit, or when its hops are used up.  Which of these happens is a property of
the graph: the chain from the start is the same for every walk.
-/

namespace Pallium.ChainWalk

variable {α : Type*} [DecidableEq α] (successors : α → List α) (admits : α → Bool)

variable {hops : ℕ} {node : α}

inductive Stop (α : Type*)
  | ended (node : α)
  | conflict
  | cycle
  | blocked
  | limit
  deriving DecidableEq

def walk : ℕ → α → List α → Stop α
  | 0, _, _ => .limit
  | hops + 1, node, visited =>
    match successors node with
    | [] => .ended node
    | [next] =>
      if next ∈ visited then .cycle
      else if admits next then walk hops next (next :: visited)
      else .blocked
    | _ => .conflict

/-- The chain of unique successors leads to a node in a number of hops. -/
inductive Reaches (start : α) : ℕ → α → Prop
  | refl : Reaches start 0 start
  | hop {hops : ℕ} {node next : α} (hreach : Reaches start hops node)
      (honly : successors node = [next]) (hadmits : admits next) :
      Reaches start (hops + 1) next

/-- Why a walk stops at a node that it reaches after a number of hops. -/
inductive Verdict (start : α) (hops : ℕ) (node : α) : Stop α → Prop
  | ended (hnone : successors node = []) : Verdict start hops node (.ended node)
  | conflict (hseveral : 1 < (successors node).length) : Verdict start hops node .conflict
  | cycle {next : α} {before : ℕ} (honly : successors node = [next]) (hbefore : before ≤ hops)
      (hreach : Reaches successors admits start before next) : Verdict start hops node .cycle
  | blocked {next : α} (honly : successors node = [next])
      (hnew : ∀ before ≤ hops, ¬ Reaches successors admits start before next)
      (hrefused : ¬ admits next) : Verdict start hops node .blocked

/-- Why a walk of bounded length stops. -/
inductive Stops (start : α) (limit : ℕ) : Stop α → Prop
  | early {hops : ℕ} {node : α} {stop : Stop α} (hbound : hops < limit)
      (hreach : Reaches successors admits start hops node)
      (hverdict : Verdict successors admits start hops node stop) : Stops start limit stop
  | limit {node : α} (hreach : Reaches successors admits start limit node)
      (hopen : ∀ hops < limit, ∀ node, Reaches successors admits start hops node →
        ¬ Verdict successors admits start hops node .cycle) : Stops start limit .limit

variable {successors admits} {start : α}

section

variable (hreach : Reaches successors admits start hops node)
include hreach

theorem Reaches.unique {other : α}
    (hother : Reaches successors admits start hops other) : node = other := by
  induction hreach generalizing other with
  | refl =>
    cases hother
    rfl
  | hop _ honly _ ih =>
    cases hother with
    | hop hreach' honly' _ =>
      obtain rfl := ih hreach'
      exact List.singleton_inj.1 (honly.symm.trans honly')

theorem Reaches.admitted (hpositive : 0 < hops) :
    admits node := by
  cases hreach with
  | refl => exact absurd hpositive (Nat.lt_irrefl 0)
  | hop _ _ hadmits => exact hadmits

theorem Reaches.goes_on {later : ℕ} {last : α}
    (hlast : Reaches successors admits start later last) (hlater : hops < later) :
    ∃ next, successors node = [next] ∧ admits next ∧
      Reaches successors admits start (hops + 1) next := by
  induction hlast with
  | refl => exact absurd hlater (Nat.not_lt_zero _)
  | @hop between middle next hmiddle honly hadmits ih =>
    rcases Nat.lt_or_eq_of_le (Nat.le_of_lt_succ hlater) with hbefore | rfl
    · exact ih hbefore
    · obtain rfl := hreach.unique hmiddle
      exact ⟨next, honly, hadmits, hreach.hop honly hadmits⟩

end

section Cycle

variable {turn : ℕ} {last first : α} {back hops : ℕ} {node : α}
  (hlast : Reaches successors admits start turn last) (honly : successors last = [first])
  (hback : back ≤ turn) (hfirst : Reaches successors admits start back first)
include hlast honly hback hfirst

/-- From each node before the turn the chain leads to one of them. -/
theorem successor_before_turn (hbefore : hops ≤ turn)
    (hreach : Reaches successors admits start hops node) :
    ∃ next, successors node = [next] ∧
      ∃ again ≤ turn, Reaches successors admits start again next := by
  rcases Nat.lt_or_eq_of_le hbefore with hearly | rfl
  · obtain ⟨next, hnext, _, hthen⟩ := hreach.goes_on hlast hearly
    exact ⟨next, hnext, hops + 1, hearly, hthen⟩
  · obtain rfl := hreach.unique hlast
    exact ⟨first, honly, back, hback, hfirst⟩

/-- A chain that has turned back leads only to nodes from before the turn. -/
theorem reaches_before_turn (hreach : Reaches successors admits start hops node) :
    ∃ again ≤ turn, Reaches successors admits start again node := by
  induction hreach with
  | refl => exact ⟨0, Nat.zero_le _, Reaches.refl⟩
  | hop _ hnext _ ih =>
    obtain ⟨again, hagain, hnode⟩ := ih
    obtain ⟨next, hsame, hthen⟩ :=
      successor_before_turn hlast honly hback hfirst hagain hnode
    obtain rfl := List.singleton_inj.1 (hnext.symm.trans hsame)
    exact hthen

/-- After a turn every verdict is that of a cycle. -/
theorem verdict_after_turn {stop : Stop α} (hafter : turn ≤ hops)
    (hreach : Reaches successors admits start hops node)
    (hverdict : Verdict successors admits start hops node stop) : stop = .cycle := by
  obtain ⟨again, hagain, hnode⟩ := reaches_before_turn hlast honly hback hfirst hreach
  obtain ⟨next, hnext, before, hbefore, hthen⟩ :=
    successor_before_turn hlast honly hback hfirst hagain hnode
  cases hverdict with
  | ended hnone => simp [hnone] at hnext
  | conflict hseveral => simp [hnext] at hseveral
  | cycle _ _ _ => rfl
  | blocked honly' hnew _ =>
    obtain rfl := List.singleton_inj.1 (hnext.symm.trans honly')
    exact absurd hthen (hnew before (Nat.le_trans hbefore hafter))

end Cycle

variable {hops limit : ℕ} {node : α} {stop other : Stop α}

section

variable (hverdict : Verdict successors admits start hops node stop)
include hverdict

section

variable (hreach : Reaches successors admits start hops node)
include hreach

theorem Verdict.cycle_of_goes_on {later : ℕ} {last : α}
    (hlast : Reaches successors admits start later last) (hlater : hops < later) :
    stop = .cycle := by
  obtain ⟨next, hnext, hadmits, _⟩ := hreach.goes_on hlast hlater
  cases hverdict with
  | ended hnone => simp [hnone] at hnext
  | conflict hseveral => simp [hnext] at hseveral
  | cycle _ _ _ => rfl
  | blocked honly _ hrefused =>
    obtain rfl := List.singleton_inj.1 (hnext.symm.trans honly)
    exact absurd hadmits hrefused

theorem Verdict.unique
    (hother : Verdict successors admits start hops node other) : stop = other := by
  cases hverdict with
  | ended hnone =>
    cases hother with
    | ended _ => rfl
    | conflict hseveral => simp [hnone] at hseveral
    | cycle honly _ _ => simp [hnone] at honly
    | blocked honly _ _ => simp [hnone] at honly
  | conflict hseveral =>
    cases hother with
    | ended hnone => simp [hnone] at hseveral
    | conflict _ => rfl
    | cycle honly _ _ => simp [honly] at hseveral
    | blocked honly _ _ => simp [honly] at hseveral
  | cycle honly hbefore hnext =>
    exact (verdict_after_turn hreach honly hbefore hnext (Nat.le_refl _) hreach hother).symm
  | blocked honly hnew hrefused =>
    cases hother with
    | ended hnone => simp [hnone] at honly
    | conflict hseveral => simp [honly] at hseveral
    | cycle honly' hbefore hnext =>
      obtain rfl := List.singleton_inj.1 (honly.symm.trans honly')
      exact absurd hnext (hnew _ hbefore)
    | blocked _ _ _ => rfl

theorem Verdict.agrees_later {later : ℕ} {last : α}
    (hlast : Reaches successors admits start later last)
    (hother : Verdict successors admits start later last other) (hlater : hops ≤ later) :
    stop = other := by
  rcases Nat.lt_or_eq_of_le hlater with hbefore | rfl
  · obtain rfl := hverdict.cycle_of_goes_on hreach hlast hbefore
    cases hverdict with
    | cycle honly hback hnext =>
      exact (verdict_after_turn hreach honly hback hnext hlater hlast hother).symm
  · obtain rfl := hreach.unique hlast
    exact hverdict.unique hreach hother

end

end

/-- There is one reason why a walk stops. -/
theorem Stops.unique (hstops : Stops successors admits start limit stop)
    (hother : Stops successors admits start limit other) : stop = other := by
  cases hstops with
  | @early hops node _ hbound hreach hverdict =>
    cases hother with
    | @early hops' node' _ hbound' hreach' hverdict' =>
      rcases Nat.le_total hops hops' with hle | hle
      · exact hverdict.agrees_later hreach hreach' hverdict' hle
      · exact (hverdict'.agrees_later hreach' hreach hverdict hle).symm
    | limit hlast hopen =>
      obtain rfl := hverdict.cycle_of_goes_on hreach hlast hbound
      exact absurd hverdict (hopen hops hbound node hreach)
  | limit hlast hopen =>
    cases hother with
    | @early hops node _ hbound hreach hverdict =>
      obtain rfl := hverdict.cycle_of_goes_on hreach hlast hbound
      exact absurd hverdict (hopen hops hbound node hreach)
    | limit _ _ => rfl

/-- A walk that is still open stops for the reason that the graph has. -/
theorem stops_walk {remaining : ℕ} {visited : List α} (hlimit : hops + remaining = limit)
    (hreach : Reaches successors admits start hops node) (hvisited : ∀ other, other ∈ visited ↔
      ∃ before ≤ hops, Reaches successors admits start before other)
    (hopen : ∀ before < hops, ∀ other, Reaches successors admits start before other →
      ¬ Verdict successors admits start before other .cycle) :
    Stops successors admits start limit (walk successors admits remaining node visited) := by
  induction remaining generalizing hops node visited with
  | zero =>
    obtain rfl : hops = limit := hlimit
    exact Stops.limit hreach hopen
  | succ remaining ih =>
    have hbound : hops < limit := by omega
    rw [walk]
    split
    · rename_i hnone
      exact Stops.early hbound hreach (Verdict.ended hnone)
    · rename_i next honly
      split
      · rename_i hseen
        obtain ⟨before, hbefore, hnext⟩ := (hvisited next).1 hseen
        exact Stops.early hbound hreach (Verdict.cycle honly hbefore hnext)
      · rename_i hnew
        have hfresh : ∀ before ≤ hops, ¬ Reaches successors admits start before next :=
          fun before hbefore hnext => hnew ((hvisited next).2 ⟨before, hbefore, hnext⟩)
        split
        · rename_i hadmits
          have hthen := hreach.hop honly hadmits
          refine ih (by omega) hthen ?_ ?_
          · intro other
            rw [List.mem_cons, hvisited]
            constructor
            · rintro (rfl | ⟨before, hbefore, hother⟩)
              · exact ⟨hops + 1, Nat.le_refl _, hthen⟩
              · exact ⟨before, Nat.le_trans hbefore (Nat.le_succ _), hother⟩
            · rintro ⟨before, hbefore, hother⟩
              rcases Nat.lt_or_eq_of_le hbefore with hearly | rfl
              · exact Or.inr ⟨before, Nat.le_of_lt_succ hearly, hother⟩
              · exact Or.inl (hother.unique hthen)
          · intro before hbefore other hother hcycle
            rcases Nat.lt_or_eq_of_le (Nat.le_of_lt_succ hbefore) with hearly | rfl
            · exact hopen before hearly other hother hcycle
            · obtain rfl := hother.unique hreach
              cases hcycle with
              | cycle honly' hback hnext =>
                obtain rfl := List.singleton_inj.1 (honly.symm.trans honly')
                exact hfresh _ hback hnext
        · rename_i hrefused
          exact Stops.early hbound hreach (Verdict.blocked honly hfresh hrefused)
    · rename_i hnone hone
      refine Stops.early hbound hreach (Verdict.conflict ?_)
      rcases hsuccessors : successors node with _ | ⟨next, _ | ⟨second, rest⟩⟩
      · exact absurd hsuccessors hnone
      · exact absurd hsuccessors (hone next)
      · simp

theorem walk_eq_iff :
    walk successors admits limit start [start] = stop ↔
      Stops successors admits start limit stop := by
  have hstops : Stops successors admits start limit
      (walk successors admits limit start [start]) := by
    refine stops_walk (Nat.zero_add limit) Reaches.refl ?_ ?_
    · intro other
      rw [List.mem_singleton]
      constructor
      · rintro rfl
        exact ⟨0, Nat.le_refl _, Reaches.refl⟩
      · rintro ⟨before, hbefore, hother⟩
        obtain rfl := Nat.le_zero.1 hbefore
        exact hother.unique Reaches.refl
    · intro before hbefore
      exact absurd hbefore (Nat.not_lt_zero _)
  constructor
  · rintro rfl
    exact hstops
  · exact hstops.unique

end Pallium.ChainWalk
