import Pallium.Core.Run

/-!
# Fencing by attempt numbers

A claim of an item counts its attempts up and installs the claimer as holder; an
outcome is accepted from whoever presents the holder and the current number.
The pair of both is the token of the claim.  A reset of the counter starts the
numbers anew, so a later claim may repeat a token.  Exactly as long as no claim
repeats a token that was given out before the last reset, all tokens differ,
only the latest claim settles the item, and every claim settles it at most once.
-/

namespace Pallium.AttemptFence

open Pallium.Run

variable {ω : Type*}

/-- An item with the tokens of its claims in their order, the number of claims
made before the last reset, and the claims that have settled it. -/
structure Item (ω : Type*) where
  holder : Option ω
  attempts : ℕ
  tokens : List (ω × ℕ)
  retired : ℕ
  settled : List ℕ
  deriving DecidableEq, Repr

/-- An item that was never claimed. -/
def Item.unclaimed : Item ω := ⟨none, 0, [], 0, []⟩

/-- What happens to an item; `settle` presents the token of the claim with the
given number. -/
inductive Event (ω : Type*)
  | claim (claimer : ω)
  | settle (index : ℕ)
  | release
  | reset
  deriving DecidableEq, Repr

/-- The token of the claim is the one that is checked. -/
def Item.Current (item : Item ω) (index : ℕ) : Prop :=
  ∃ claimer, item.holder = some claimer ∧ item.tokens[index]? = some (claimer, item.attempts)

variable [DecidableEq ω]

instance (item : Item ω) (index : ℕ) : Decidable (item.Current index) :=
  match hholder : item.holder with
  | none => isFalse fun ⟨_, hsome, _⟩ => by rw [hholder] at hsome; cases hsome
  | some claimer =>
    decidable_of_iff (item.tokens[index]? = some (claimer, item.attempts))
      ⟨fun htoken => ⟨claimer, hholder, htoken⟩, fun ⟨_, hsome, htoken⟩ => by
        rw [hholder, Option.some.injEq] at hsome
        rw [hsome, htoken]⟩

def Item.step (item : Item ω) : Event ω → Item ω
  | .claim claimer =>
    { item with
      holder := some claimer
      attempts := item.attempts + 1
      tokens := item.tokens ++ [(claimer, item.attempts + 1)] }
  | .settle index =>
    if item.Current index then
      { item with holder := none, settled := item.settled ++ [index] }
    else item
  | .release => { item with holder := none }
  | .reset => { item with holder := none, attempts := 0, retired := item.tokens.length }

theorem Item.step_settle (item : Item ω) (index : ℕ) : item.step (.settle index) =
    if item.Current index then { item with holder := none, settled := item.settled ++ [index] }
    else item := rfl

/-- A claim does not repeat a token from before the last reset. -/
def Item.Fresh (item : Item ω) : Event ω → Prop
  | .claim claimer => (claimer, item.attempts + 1) ∉ item.tokens.take item.retired
  | _ => True

/-- Only the latest claim settles the item. -/
def Item.LatestOnly (item : Item ω) : Event ω → Prop
  | .settle index => item.Current index → index + 1 = item.tokens.length
  | _ => True

/-- The tokens since the last reset count up, and the holder has the last one. -/
structure Item.Ordered (item : Item ω) : Prop where
  retired : item.retired ≤ item.tokens.length
  rising : (item.tokens.drop item.retired).Pairwise fun earlier later => earlier.2 < later.2
  bounded : ∀ token ∈ item.tokens.drop item.retired, token.2 ≤ item.attempts
  held : ∀ claimer, item.holder = some claimer →
    item.tokens.getLast? = some (claimer, item.attempts)
  settled : ∀ index ∈ item.settled, index < item.tokens.length

omit [DecidableEq ω] in
theorem Item.Ordered.unclaimed : (Item.unclaimed : Item ω).Ordered where
  retired := le_rfl
  rising := .nil
  bounded _ htoken := (List.not_mem_nil htoken).elim
  held _ hholder := nomatch hholder
  settled _ hindex := (List.not_mem_nil hindex).elim

variable {item : Item ω} {event : Event ω} {events : List (Event ω)}

theorem Item.Ordered.step (hordered : item.Ordered) (event : Event ω) :
    (item.step event).Ordered := by
  cases event with
  | claim claimer =>
    have hdrop : (item.tokens ++ [(claimer, item.attempts + 1)]).drop item.retired =
        item.tokens.drop item.retired ++ [(claimer, item.attempts + 1)] :=
      List.drop_append_of_le_length hordered.retired
    refine ⟨?_, ?_, fun token htoken => ?_, fun other hother => ?_, fun index hindex => ?_⟩
    · change item.retired ≤ (item.tokens ++ [_]).length
      rw [List.length_append]
      exact hordered.retired.trans (Nat.le_add_right _ _)
    · change ((item.tokens ++ [_]).drop item.retired).Pairwise _
      rw [hdrop]
      refine List.pairwise_append.mpr ⟨hordered.rising, List.pairwise_singleton _ _, ?_⟩
      intro token htoken last hlast
      obtain rfl := List.mem_singleton.mp hlast
      exact Nat.lt_succ_of_le (hordered.bounded token htoken)
    · change token ∈ (item.tokens ++ [_]).drop item.retired at htoken
      rw [hdrop] at htoken
      rcases List.mem_append.mp htoken with hbefore | hnew
      · exact (hordered.bounded token hbefore).trans (Nat.le_succ _)
      · obtain rfl := List.mem_singleton.mp hnew
        exact le_rfl
    · cases hother
      exact List.getLast?_concat
    · change index < (item.tokens ++ [_]).length
      rw [List.length_append]
      exact (hordered.settled index hindex).trans_le (Nat.le_add_right _ _)
  | settle index =>
    rw [item.step_settle]
    split
    · next hcurrent =>
        refine ⟨hordered.retired, hordered.rising, hordered.bounded, fun _ hholder => ?_,
          fun other hother => ?_⟩
        · cases hholder
        · rcases List.mem_append.mp hother with hbefore | hnew
          · exact hordered.settled other hbefore
          · obtain rfl := List.mem_singleton.mp hnew
            obtain ⟨claimer, -, htoken⟩ := hcurrent
            exact (List.getElem?_eq_some_iff.mp htoken).1
    · exact hordered
  | release =>
    exact ⟨hordered.retired, hordered.rising, hordered.bounded,
      fun _ hholder => (nomatch hholder), hordered.settled⟩
  | reset =>
    have hnone : item.tokens.drop item.tokens.length = [] := List.drop_length
    refine ⟨le_rfl, ?_, fun token htoken => ?_, fun _ hholder => (nomatch hholder),
      hordered.settled⟩
    · change (item.tokens.drop item.tokens.length).Pairwise _
      rw [hnone]
      exact .nil
    · change token ∈ item.tokens.drop item.tokens.length at htoken
      rw [hnone] at htoken
      cases htoken

/-- The tokens a step gives out. -/
def Item.given (item : Item ω) : Event ω → List (ω × ℕ)
  | .claim claimer => [(claimer, item.attempts + 1)]
  | _ => []

theorem Item.tokens_step (item : Item ω) (event : Event ω) :
    (item.step event).tokens = item.tokens ++ item.given event := by
  cases event with
  | claim claimer => rfl
  | settle index =>
    rw [item.step_settle]
    split <;> exact (List.append_nil _).symm
  | release => exact (List.append_nil _).symm
  | reset => exact (List.append_nil _).symm

theorem Item.Ordered.nodup_step (hordered : item.Ordered) (hdistinct : item.tokens.Nodup)
    (event : Event ω) : (item.step event).tokens.Nodup ↔ item.Fresh event := by
  rw [item.tokens_step]
  cases event with
  | claim claimer =>
    have hrecent : (claimer, item.attempts + 1) ∉ item.tokens.drop item.retired := by
      intro hmem
      exact absurd (hordered.bounded _ hmem) (Nat.not_succ_le_self _)
    have hmem : (claimer, item.attempts + 1) ∈ item.tokens ↔
        (claimer, item.attempts + 1) ∈ item.tokens.take item.retired := by
      conv_lhs => rw [← List.take_append_drop item.retired item.tokens]
      rw [List.mem_append]
      exact or_iff_left hrecent
    rw [Item.given, List.nodup_append_comm, List.singleton_append, List.nodup_cons, hmem]
    exact and_iff_left hdistinct
  | _ => exact iff_of_true (by simpa [Item.given] using hdistinct) trivial

/-- No claim has repeated a token or settled the item twice. -/
structure Item.Fenced (item : Item ω) : Prop extends item.Ordered where
  distinct : item.tokens.Nodup
  once : item.settled.Nodup
  unsettled : item.holder.isSome → ∀ index ∈ item.settled, index + 1 ≠ item.tokens.length

omit [DecidableEq ω] in
theorem Item.Fenced.unclaimed : (Item.unclaimed : Item ω).Fenced where
  toOrdered := Item.Ordered.unclaimed
  distinct := .nil
  once := .nil
  unsettled _ _ hindex := (List.not_mem_nil hindex).elim

omit [DecidableEq ω] in
theorem Item.Fenced.latest (hfenced : item.Fenced) {index : ℕ} (hcurrent : item.Current index) :
    index + 1 = item.tokens.length := by
  obtain ⟨claimer, hholder, htoken⟩ := hcurrent
  have hlast := hfenced.held claimer hholder
  rw [List.getLast?_eq_getElem?] at hlast
  obtain ⟨hindex, hget⟩ := List.getElem?_eq_some_iff.mp htoken
  obtain ⟨hlength, hgetLast⟩ := List.getElem?_eq_some_iff.mp hlast
  have hsame := (hfenced.distinct.getElem_inj_iff).mp (hget.trans hgetLast.symm)
  omega

omit [DecidableEq ω] in
theorem Item.Fenced.latestOnly (hfenced : item.Fenced) (event : Event ω) :
    item.LatestOnly event := by
  cases event with
  | settle index => exact hfenced.latest
  | claim => trivial
  | release => trivial
  | reset => trivial

theorem Item.Fenced.step (hfenced : item.Fenced) (hfresh : item.Fresh event) :
    (item.step event).Fenced := by
  have hordered := hfenced.toOrdered.step event
  have hdistinct := (hfenced.toOrdered.nodup_step hfenced.distinct event).mpr hfresh
  cases event with
  | claim claimer =>
    refine ⟨hordered, hdistinct, hfenced.once, fun _ index hindex => ?_⟩
    have hbefore := hfenced.settled index hindex
    change index + 1 ≠ (item.tokens ++ [_]).length
    rw [List.length_append, List.length_singleton]
    omega
  | settle index =>
    rw [item.step_settle] at hordered hdistinct ⊢
    split at hordered
    · next hcurrent =>
        rw [if_pos hcurrent] at hdistinct ⊢
        refine ⟨hordered, hdistinct, ?_, fun hheld => nomatch hheld⟩
        have hlatest := hfenced.latest hcurrent
        obtain ⟨claimer, hholder, -⟩ := hcurrent
        refine List.nodup_append.mpr ⟨hfenced.once, List.nodup_singleton index, ?_⟩
        rintro earlier hearlier last hlast rfl
        obtain rfl := List.mem_singleton.mp hlast
        exact hfenced.unsettled (by rw [hholder]; rfl) _ hearlier hlatest
    · next hstale =>
        rw [if_neg hstale]
        exact hfenced
  | release => exact ⟨hordered, hdistinct, hfenced.once, fun hheld => nomatch hheld⟩
  | reset => exact ⟨hordered, hdistinct, hfenced.once, fun hheld => nomatch hheld⟩

theorem Item.Fenced.run (hfenced : item.Fenced)
    (hfresh : Along Item.step Item.Fresh item events) :
    (Run.run Item.step item events).Fenced ∧ Along Item.step Item.LatestOnly item events := by
  induction events generalizing item with
  | nil => exact ⟨hfenced, trivial⟩
  | cons event rest ih =>
    obtain ⟨hrun, hlatest⟩ := ih (hfenced.step hfresh.1) hfresh.2
    exact ⟨hrun, hfenced.latestOnly event, hlatest⟩

theorem Item.tokens_run (item : Item ω) (events : List (Event ω)) :
    item.tokens <+: (Run.run Item.step item events).tokens := by
  induction events generalizing item with
  | nil => exact List.prefix_rfl
  | cons event rest ih =>
    refine List.IsPrefix.trans ?_ (ih (item.step event))
    rw [item.tokens_step]
    exact List.prefix_append _ _

theorem Item.Ordered.fresh_of_nodup (hordered : item.Ordered)
    (hdistinct : (Run.run Item.step item events).tokens.Nodup) :
    Along Item.step Item.Fresh item events := by
  induction events generalizing item with
  | nil => trivial
  | cons event rest ih =>
    have hnext : (item.step event).tokens.Nodup :=
      hdistinct.sublist ((item.step event).tokens_run rest).sublist
    have hnow : item.tokens.Nodup := by
      rw [item.tokens_step] at hnext
      exact hnext.of_append_left
    exact ⟨(hordered.nodup_step hnow event).mp hnext, ih (hordered.step event) hdistinct⟩

theorem fenced_iff (events : List (Event ω)) :
    ((Run.run Item.step Item.unclaimed events).tokens.Nodup ∧
        (Run.run Item.step Item.unclaimed events).settled.Nodup ∧
        Along Item.step Item.LatestOnly Item.unclaimed events) ↔
      Along Item.step Item.Fresh (Item.unclaimed : Item ω) events := by
  constructor
  · rintro ⟨hdistinct, -, -⟩
    exact Item.Ordered.unclaimed.fresh_of_nodup hdistinct
  · intro hfresh
    obtain ⟨hfenced, hlatest⟩ := Item.Fenced.unclaimed.run hfresh
    exact ⟨hfenced.distinct, hfenced.once, hlatest⟩

end Pallium.AttemptFence
