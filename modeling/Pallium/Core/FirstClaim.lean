import Mathlib

/-!
# First claims

Claimants walk one after the other over the same list of things and take every
thing they want that is not taken yet.  What is taken belongs to the first
claimant that wants it.
-/

namespace Pallium.FirstClaim

variable {Claimant Thing Key : Type*} [DecidableEq Key]
variable (wants : Claimant → Thing → Bool) (keyOf : Thing → Key)

variable {claimant : Claimant} {taken : List (Claimant × Thing)} {claim : Claimant × Thing}

/-- A claimant looks at one thing. -/
def claimOne (claimant : Claimant) (taken : List (Claimant × Thing)) (thing : Thing) :
    List (Claimant × Thing) :=
  if wants claimant thing ∧ keyOf thing ∉ taken.map fun claim => keyOf claim.2 then
    taken ++ [(claimant, thing)]
  else taken

/-- A claimant walks over all things. -/
def claimAll (things : List Thing) (taken : List (Claimant × Thing)) (claimant : Claimant) :
    List (Claimant × Thing) :=
  things.foldl (claimOne wants keyOf claimant) taken

def claims (claimants : List Claimant) (things : List Thing) : List (Claimant × Thing) :=
  claimants.foldl (claimAll wants keyOf things) []

variable {wants keyOf}

theorem mem_claimOne {thing : Thing} :
    claim ∈ claimOne wants keyOf claimant taken thing ↔
      claim ∈ taken ∨ claim = (claimant, thing) ∧ wants claimant thing ∧
        keyOf thing ∉ taken.map fun claim => keyOf claim.2 := by
  unfold claimOne
  split
  · next hclaims =>
      rw [List.mem_append, List.mem_singleton]
      exact or_congr_right (iff_self_and.mpr fun _ => hclaims)
  · next hclaims =>
      exact (or_iff_left fun hnew => hclaims hnew.2).symm

theorem claimOne_nodup {thing : Thing} (hnodup : (taken.map fun claim => keyOf claim.2).Nodup) :
    ((claimOne wants keyOf claimant taken thing).map fun claim => keyOf claim.2).Nodup := by
  unfold claimOne
  split
  · next hclaims =>
      rw [List.map_append, List.map_singleton]
      exact hnodup.append (List.nodup_singleton _) (List.disjoint_singleton.mpr hclaims.2)
  · exact hnodup

theorem mem_claimAll {things : List Thing} (hkeys : (things.map keyOf).Nodup) :
    claim ∈ claimAll wants keyOf things taken claimant ↔
      claim ∈ taken ∨ claim.1 = claimant ∧ claim.2 ∈ things ∧ wants claimant claim.2 ∧
        keyOf claim.2 ∉ taken.map fun claim => keyOf claim.2 := by
  induction things generalizing taken with
  | nil =>
    constructor
    · exact Or.inl
    · rintro (hbefore | ⟨-, hmem, -⟩)
      · exact hbefore
      · exact absurd hmem List.not_mem_nil
  | cons head rest ih =>
    rw [List.map_cons, List.nodup_cons] at hkeys
    have hwalk : claim ∈ claimAll wants keyOf (head :: rest) taken claimant ↔
        claim ∈ claimAll wants keyOf rest (claimOne wants keyOf claimant taken head) claimant :=
      Iff.rfl
    -- a key of the rest is not the key of the head, so the head's claim hides none of them
    have hlater : ∀ thing ∈ rest,
        (keyOf thing ∈ (claimOne wants keyOf claimant taken head).map
            fun claim => keyOf claim.2) ↔
          keyOf thing ∈ taken.map fun claim => keyOf claim.2 := by
      intro thing hthing
      have hne : keyOf thing ≠ keyOf head := by
        intro hsame
        exact hkeys.1 (hsame ▸ List.mem_map_of_mem hthing)
      constructor
      · intro hmem
        obtain ⟨known, hknown, hkey⟩ := List.mem_map.mp hmem
        rcases mem_claimOne.mp hknown with hbefore | ⟨rfl, -, -⟩
        · exact List.mem_map.mpr ⟨known, hbefore, hkey⟩
        · exact absurd hkey.symm hne
      · intro hmem
        obtain ⟨known, hknown, hkey⟩ := List.mem_map.mp hmem
        exact List.mem_map.mpr ⟨known, mem_claimOne.mpr (Or.inl hknown), hkey⟩
    rw [hwalk, ih hkeys.2, mem_claimOne]
    constructor
    · rintro ((hbefore | ⟨rfl, hwants, hfree⟩) | ⟨hclaimant, hmem, hwants, hfree⟩)
      · exact Or.inl hbefore
      · exact Or.inr ⟨rfl, List.mem_cons_self, hwants, hfree⟩
      · rw [hlater _ hmem] at hfree
        exact Or.inr ⟨hclaimant, List.mem_cons_of_mem _ hmem, hwants, hfree⟩
    · rintro (hbefore | ⟨hclaimant, hmem, hwants, hfree⟩)
      · exact Or.inl (Or.inl hbefore)
      · rcases List.mem_cons.mp hmem with hhead | hrest
        · refine Or.inl (Or.inr ⟨Prod.ext hclaimant hhead, ?_, ?_⟩)
          · exact hhead ▸ hwants
          · exact hhead ▸ hfree
        · refine Or.inr ⟨hclaimant, hrest, hwants, ?_⟩
          rw [hlater _ hrest]
          exact hfree

theorem mem_claims {claimants : List Claimant} {things : List Thing}
    (hkeys : (things.map keyOf).Nodup) :
    claim ∈ claims wants keyOf claimants things ↔
      claim.2 ∈ things ∧ claimants.find? (wants · claim.2) = some claim.1 := by
  induction claimants using List.reverseRecOn generalizing claim with
  | nil =>
    constructor
    · intro hmem
      exact absurd hmem List.not_mem_nil
    · rintro ⟨-, hfind⟩
      cases hfind
  | append_singleton earlier last ih =>
    have hstep : claims wants keyOf (earlier ++ [last]) things =
        claimAll wants keyOf things (claims wants keyOf earlier things) last := by
      rw [claims, List.foldl_append]
      rfl
    have hfree : ∀ thing ∈ things,
        (keyOf thing ∉ (claims wants keyOf earlier things).map fun claim => keyOf claim.2) ↔
          earlier.find? (wants · thing) = none := by
      intro thing hthing
      constructor
      · intro hfree
        cases hfirst : earlier.find? (wants · thing) with
        | none => rfl
        | some first =>
          exact absurd (List.mem_map.mpr ⟨(first, thing), ih.mpr ⟨hthing, hfirst⟩, rfl⟩) hfree
      · intro hnone hmem
        obtain ⟨known, hknown, hkey⟩ := List.mem_map.mp hmem
        obtain ⟨hknownThing, hfirst⟩ := ih.mp hknown
        have hsame : known.2 = thing := List.inj_on_of_nodup_map hkeys hknownThing hthing hkey
        rw [hsame, hnone] at hfirst
        cases hfirst
    rw [hstep, mem_claimAll hkeys, ih, List.find?_append]
    constructor
    · rintro (⟨hmem, hfirst⟩ | ⟨rfl, hmem, hwants, hnew⟩)
      · exact ⟨hmem, by rw [hfirst, Option.some_or]⟩
      · rw [hfree _ hmem] at hnew
        rw [hnew, Option.none_or, List.find?_singleton, hwants]
        exact ⟨hmem, rfl⟩
    · rintro ⟨hmem, hfirst⟩
      cases hearlier : earlier.find? (wants · claim.2) with
      | some first =>
        rw [hearlier, Option.some_or] at hfirst
        exact Or.inl ⟨hmem, hfirst⟩
      | none =>
        rw [hearlier, Option.none_or] at hfirst
        have hlast : last = claim.1 ∧ wants last claim.2 = true := by
          cases hwants : wants last claim.2 with
          | true =>
            rw [List.find?_singleton, hwants] at hfirst
            exact ⟨Option.some.inj hfirst, rfl⟩
          | false =>
            rw [List.find?_singleton, hwants] at hfirst
            cases hfirst
        exact Or.inr ⟨hlast.1.symm, hmem, hlast.2, (hfree _ hmem).mpr hearlier⟩

theorem claims_nodup (claimants : List Claimant) (things : List Thing) :
    ((claims wants keyOf claimants things).map fun claim => keyOf claim.2).Nodup := by
  have hwalk : ∀ (claimant : Claimant) (rest : List Thing) (taken : List (Claimant × Thing)),
      (taken.map fun claim => keyOf claim.2).Nodup →
        ((claimAll wants keyOf rest taken claimant).map fun claim => keyOf claim.2).Nodup := by
    intro claimant rest
    induction rest with
    | nil => exact fun taken htaken => htaken
    | cons head rest ih => exact fun taken htaken => ih _ (claimOne_nodup htaken)
  induction claimants using List.reverseRecOn with
  | nil => exact List.nodup_nil
  | append_singleton earlier last ih =>
    rw [claims, List.foldl_append]
    exact hwalk last things _ ih

end Pallium.FirstClaim
