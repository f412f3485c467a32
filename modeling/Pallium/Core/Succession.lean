import Pallium.Core.Run

/-!
# Succession

A relation in which everything has at most one successor and no chain of
successors returns to its start.  Linking a node that has no successor to one
whose chain does not lead back to it keeps both.  A node may also be marked
first and get its successor later; while it waits, no one else may mark it.
-/

namespace Pallium.Succession

open Relation Pallium.Run

variable {α : Type*}

/-- At most one successor, and no cycle. -/
structure Chained (successor : α → α → Prop) : Prop where
  functional : ∀ ⦃node first second⦄, successor node first → successor node second → first = second
  acyclic : ∀ node, ¬TransGen successor node node

/-- The relation with one more successor. -/
def linked (successor : α → α → Prop) (source target : α) : α → α → Prop :=
  fun first second => successor first second ∨ first = source ∧ second = target

variable {successor : α → α → Prop} {source target : α}

theorem transGen_linked {first last : α}
    (hchain : TransGen (linked successor source target) first last) :
    TransGen successor first last ∨
      ReflTransGen successor first source ∧ ReflTransGen successor target last := by
  induction hchain with
  | single hlink =>
    rcases hlink with hold | ⟨rfl, rfl⟩
    · exact Or.inl (.single hold)
    · exact Or.inr ⟨.refl, .refl⟩
  | tail hchain hlink ih =>
    rcases hlink with hold | ⟨rfl, rfl⟩
    · rcases ih with hbefore | ⟨hsource, htarget⟩
      · exact Or.inl (hbefore.tail hold)
      · exact Or.inr ⟨hsource, htarget.tail hold⟩
    · rcases ih with hbefore | ⟨hsource, -⟩
      · exact Or.inr ⟨hbefore.to_reflTransGen, .refl⟩
      · exact Or.inr ⟨hsource, .refl⟩

theorem Chained.empty : Chained fun _ _ : α => False where
  functional _ _ _ hfirst := hfirst.elim
  acyclic _ hcycle := by
    cases hcycle with
    | single hlink => exact hlink
    | tail _ hlink => exact hlink

theorem Chained.link (hchained : Chained successor)
    (hfree : ∀ node, ¬successor source node) (hapart : ¬ReflTransGen successor target source) :
    Chained (linked successor source target) where
  functional node first second hfirst hsecond := by
    rcases hfirst with hfirst | ⟨rfl, rfl⟩
    · rcases hsecond with hsecond | ⟨rfl, rfl⟩
      · exact hchained.functional hfirst hsecond
      · exact absurd hfirst (hfree first)
    · rcases hsecond with hsecond | ⟨-, rfl⟩
      · exact absurd hsecond (hfree second)
      · rfl
  acyclic node hcycle := by
    rcases transGen_linked hcycle with hold | ⟨hsource, htarget⟩
    · exact hchained.acyclic node hold
    · exact hapart (htarget.trans hsource)

/-- Marked nodes, their successors, and the marked nodes that wait for one. -/
structure Graph (α : Type*) where
  successor : α → α → Prop
  marked : α → Prop
  waiting : Multiset α

/-- What happens to a graph. -/
inductive Event (α : Type*)
  | mark (node : α)
  | link (node successor : α)

namespace Graph

def empty : Graph α := ⟨fun _ _ => False, fun _ => False, 0⟩

variable [DecidableEq α]

def step (graph : Graph α) : Event α → Graph α
  | .mark node =>
    { graph with
      marked := fun other => graph.marked other ∨ other = node
      waiting := node ::ₘ graph.waiting }
  | .link node target =>
    { graph with
      successor := linked graph.successor node target
      waiting := graph.waiting.erase node }

/-- Only unmarked nodes are marked, and only waiting nodes are linked, to nodes
that do not lead to them. -/
def Allowed (graph : Graph α) : Event α → Prop
  | .mark node => ¬graph.marked node
  | .link node target => node ∈ graph.waiting ∧ ¬ReflTransGen graph.successor target node

/-- Exactly the marked nodes that do not wait have a successor. -/
structure Sound (graph : Graph α) : Prop where
  chained : Chained graph.successor
  marked : ∀ node next, graph.successor node next → graph.marked node
  linked : ∀ node, graph.marked node → node ∉ graph.waiting → ∃ next, graph.successor node next
  waitingMarked : ∀ node ∈ graph.waiting, graph.marked node
  waitingFree : ∀ node ∈ graph.waiting, ∀ next, ¬graph.successor node next
  once : graph.waiting.Nodup

omit [DecidableEq α] in
theorem Sound.empty : (empty : Graph α).Sound where
  chained := Chained.empty
  marked _ _ hlink := hlink.elim
  linked _ hmarked := hmarked.elim
  waitingMarked _ hwaiting := (Multiset.notMem_zero _ hwaiting).elim
  waitingFree _ hwaiting := (Multiset.notMem_zero _ hwaiting).elim
  once := Multiset.nodup_zero

variable {graph : Graph α} {event : Event α} {events : List (Event α)}

theorem Sound.step (hsound : graph.Sound) (hallowed : graph.Allowed event) :
    (graph.step event).Sound := by
  cases event with
  | mark node =>
    refine ⟨hsound.chained, fun first next hlink => Or.inl (hsound.marked first next hlink),
      fun first hmarked hnot => ?_, fun first hwaiting => ?_, fun first hwaiting next hlink => ?_,
      ?_⟩
    · rcases hmarked with hbefore | rfl
      · exact hsound.linked first hbefore fun hwaiting =>
          hnot (Multiset.mem_cons_of_mem hwaiting)
      · exact absurd (Multiset.mem_cons_self _ _) hnot
    · rcases Multiset.mem_cons.mp hwaiting with rfl | hbefore
      · exact Or.inr rfl
      · exact Or.inl (hsound.waitingMarked first hbefore)
    · rcases Multiset.mem_cons.mp hwaiting with rfl | hbefore
      · exact hallowed (hsound.marked _ next hlink)
      · exact hsound.waitingFree first hbefore next hlink
    · exact Multiset.nodup_cons.mpr
        ⟨fun hwaiting => hallowed (hsound.waitingMarked node hwaiting), hsound.once⟩
  | link node target =>
    obtain ⟨hwaits, hapart⟩ := hallowed
    refine ⟨hsound.chained.link (hsound.waitingFree node hwaits) hapart,
      fun first next hlink => ?_, fun first hmarked hnot => ?_,
      fun first hwaiting => hsound.waitingMarked first (Multiset.mem_of_mem_erase hwaiting),
      fun first hwaiting next hlink => ?_, hsound.once.erase node⟩
    · rcases hlink with hbefore | ⟨rfl, -⟩
      · exact hsound.marked first next hbefore
      · exact hsound.waitingMarked first hwaits
    · by_cases hnode : first = node
      · exact ⟨target, Or.inr ⟨hnode, rfl⟩⟩
      · obtain ⟨next, hnext⟩ := hsound.linked first hmarked fun hwaiting =>
          hnot ((Multiset.mem_erase_of_ne hnode).mpr hwaiting)
        exact ⟨next, Or.inl hnext⟩
    · obtain ⟨hne, hbefore⟩ := hsound.once.mem_erase_iff.mp hwaiting
      rcases hlink with hlink | ⟨rfl, -⟩
      · exact hsound.waitingFree first hbefore next hlink
      · exact hne rfl

theorem Sound.run (hsound : graph.Sound) (hallowed : Along Graph.step Allowed graph events) :
    (Run.run Graph.step graph events).Sound :=
  hallowed.invariant hsound fun _ _ hnow hbefore => hbefore.step hnow

theorem marked_run (graph : Graph α) (events : List (Event α)) {node : α}
    (hmarked : graph.marked node) : (Run.run Graph.step graph events).marked node := by
  refine @run_invariant _ _ Graph.step (fun current => current.marked node) graph hmarked
    (fun current event hcurrent => ?_) events
  cases event with
  | mark other => exact Or.inl hcurrent
  | link other target => exact hcurrent

end Graph

end Pallium.Succession
