import Mathlib

/-!
# Paging through a sorted list behind a cursor

A background sweep visits a sorted list page by page and remembers the last
entry it saw.  Two protocols occur: after the last page the cursor is reset, or
an exhausted cursor restarts from the front in the same call.  For both, as
long as the list stays the same and a page misses every wanted entry, a natural
number decreases, so a wanted entry is visited after finitely many pages.
-/

namespace Pallium.Paging

variable {ι : Type*} [LinearOrder ι]

variable {entry : ι} {after : Option ι} {items : List ι}

/-- `entry` lies strictly behind the cursor; no cursor means the very start. -/
def Beyond (after : Option ι) (entry : ι) : Prop := ∀ last ∈ after, last < entry

instance (after : Option ι) (entry : ι) : Decidable (Beyond after entry) :=
  match after with
  | none => isTrue fun _ hlast => by cases hlast
  | some last => decidable_of_iff (last < entry) (by simp [Beyond])

@[simp]
theorem beyond_none (entry : ι) : Beyond none entry := by simp [Beyond]

@[simp]
theorem beyond_some {last : ι} : Beyond (some last) entry ↔ last < entry := by
  simp [Beyond]

theorem Beyond.trans {middle : ι} (hmiddle : Beyond after middle) (hlt : middle < entry) :
    Beyond after entry :=
  fun last hlast => (hmiddle last hlast).trans hlt

/-- The entries behind the cursor. -/
def behind (after : Option ι) (items : List ι) : List ι :=
  items.filter fun entry => decide (Beyond after entry)

@[simp]
theorem behind_none (items : List ι) : behind none items = items := by
  simp [behind]

theorem mem_behind :
    entry ∈ behind after items ↔ entry ∈ items ∧ Beyond after entry := by
  simp [behind]

theorem behind_pairwise (hsorted : items.Pairwise (· < ·)) :
    (behind after items).Pairwise (· < ·) :=
  hsorted.filter _

theorem exists_last_lt {limit : ℕ} (hlimit : 0 < limit) (hsorted : items.Pairwise (· < ·))
    (hmem : entry ∈ items) (hmiss : entry ∉ items.take limit) :
    ∃ last, (items.take limit).getLast? = some last ∧ last ∈ items ∧ last < entry := by
  have hne : items.take limit ≠ [] := by
    intro hnil
    rcases List.take_eq_nil_iff.mp hnil with hzero | hnil
    · omega
    · exact List.ne_nil_of_mem hmem hnil
  have hdrop : entry ∈ items.drop limit := by
    rw [← List.take_append_drop limit items, List.mem_append] at hmem
    exact hmem.resolve_left hmiss
  have hsplit : (items.take limit ++ items.drop limit).Pairwise (· < ·) := by
    rwa [List.take_append_drop]
  have hlast := List.getLast_mem hne
  exact ⟨(items.take limit).getLast hne, List.getLast?_eq_some_getLast hne,
    List.mem_of_mem_take hlast,
    (List.pairwise_append.mp hsplit).2.2 _ hlast _ hdrop⟩

theorem length_behind_lt {last : ι} (hmem : last ∈ items) (hlast : Beyond after last) :
    (behind (some last) items).length < (behind after items).length := by
  have hnested : behind (some last) items = behind (some last) (behind after items) := by
    rw [behind, behind, behind, List.filter_filter]
    refine List.filter_congr fun entry _ => ?_
    by_cases hentry : last < entry
    · simp [hentry, hlast.trans hentry]
    · simp [hentry]
  rw [hnested, behind, List.length_filter_lt_length_iff_exists]
  exact ⟨last, mem_behind.mpr ⟨hmem, hlast⟩, by simp⟩

/-! ## The distance to the next wanted entry -/

section Distance

variable (wanted : ι → Prop) [DecidablePred wanted]

variable {items : List ι} {after : Option ι} {limit : ℕ}

/-- Whether the sweep still has a wanted entry in front of it. -/
def Ahead (after : Option ι) (items : List ι) : Prop :=
  ∃ entry ∈ items, wanted entry ∧ Beyond after entry

instance (after : Option ι) (items : List ι) : Decidable (Ahead wanted after items) :=
  List.decidableBEx _ _

/-- Entries left until a wanted one is reached: those behind the cursor, plus a
whole round when every wanted entry has been passed. -/
def distance (after : Option ι) (items : List ι) : ℕ :=
  if Ahead wanted after items then (behind after items).length
  else (behind after items).length + items.length + 1

variable {wanted}

omit [DecidablePred wanted] in
theorem ahead_none (hwanted : ∃ entry ∈ items, wanted entry) :
    Ahead wanted none items := by
  obtain ⟨entry, hmem, hentry⟩ := hwanted
  exact ⟨entry, hmem, hentry, beyond_none entry⟩

theorem distance_none (hwanted : ∃ entry ∈ items, wanted entry) :
    distance wanted none items = items.length := by
  rw [distance, if_pos (ahead_none hwanted), behind_none]

theorem distance_of_passed (hpassed : ¬ Ahead wanted after items) :
    distance wanted after items = (behind after items).length + items.length + 1 := by
  rw [distance, if_neg hpassed]

theorem distance_advance {last : ι} (hmem : last ∈ items) (hlast : Beyond after last)
    (hkept : Ahead wanted after items → Ahead wanted (some last) items) :
    distance wanted (some last) items < distance wanted after items := by
  have hshorter := length_behind_lt hmem hlast
  have hbound : (behind (some last) items).length ≤ items.length :=
    List.length_filter_le _ _
  unfold distance
  by_cases hahead : Ahead wanted after items
  · rw [if_pos hahead, if_pos (hkept hahead)]
    exact hshorter
  · rw [if_neg hahead]
    split <;> omega

section

variable (hlimit : 0 < limit) (hsorted : items.Pairwise (· < ·))
include hlimit hsorted

theorem distance_page {last : ι}
    (hpage : ((behind after items).take limit).getLast? = some last)
    (hmiss : ∀ entry ∈ (behind after items).take limit, ¬ wanted entry) :
    distance wanted (some last) items < distance wanted after items := by
  have hlast : last ∈ behind after items :=
    List.mem_of_mem_take (List.mem_of_getLast? hpage)
  obtain ⟨hmem, hbeyond⟩ := mem_behind.mp hlast
  refine distance_advance hmem hbeyond ?_
  rintro ⟨entry, hentry, hwanted, hahead⟩
  obtain ⟨final, hfinal, -, hlt⟩ := exists_last_lt hlimit (behind_pairwise hsorted)
    (mem_behind.mpr ⟨hentry, hahead⟩) fun hin => hmiss entry hin hwanted
  rw [hpage, Option.some.injEq] at hfinal
  exact ⟨entry, hentry, hwanted, by rw [beyond_some, hfinal]; exact hlt⟩

theorem distance_resetOnEmpty
    (hwanted : ∃ entry ∈ items, wanted entry)
    (hmiss : ∀ entry ∈ (behind after items).take limit, ¬ wanted entry) :
    distance wanted ((behind after items).take limit).getLast? items <
      distance wanted after items := by
  cases hpage : ((behind after items).take limit).getLast? with
  | some last => exact distance_page hlimit hsorted hpage hmiss
  | none =>
    rw [List.getLast?_eq_none_iff, List.take_eq_nil_iff] at hpage
    have hempty : behind after items = [] := hpage.resolve_left (by omega)
    have hpassed : ¬ Ahead wanted after items := by
      rintro ⟨entry, hentry, -, hahead⟩
      have hin := mem_behind.mpr ⟨hentry, hahead⟩
      rw [hempty] at hin
      cases hin
    rw [distance_none hwanted, distance_of_passed hpassed]
    omega

/-- The candidates of the protocol that restarts an exhausted cursor. -/
def restartCandidates (after : Option ι) (items : List ι) : List ι :=
  if behind after items = [] then items else behind after items

/-- The cursor of that protocol after one page: the last entry of the page, or
the start when the page was the final one. -/
def restartCursor (limit : ℕ) (candidates : List ι) : Option ι :=
  if limit < candidates.length then (candidates.take limit).getLast? else none

theorem distance_restart
    (hwanted : ∃ entry ∈ items, wanted entry)
    (hmiss : ∀ entry ∈ (restartCandidates after items).take limit, ¬ wanted entry) :
    distance wanted (restartCursor limit (restartCandidates after items)) items <
      distance wanted after items := by
  unfold restartCandidates at hmiss ⊢
  unfold restartCursor
  by_cases hempty : behind after items = []
  · rw [if_pos hempty] at hmiss ⊢
    have hpassed : ¬ Ahead wanted after items := by
      rintro ⟨entry, hentry, -, hahead⟩
      have hin := mem_behind.mpr ⟨hentry, hahead⟩
      rw [hempty] at hin
      cases hin
    rw [distance_of_passed hpassed]
    split
    · cases hpage : (items.take limit).getLast? with
      | none => rw [distance_none hwanted]; omega
      | some last =>
        have hclose : distance wanted (some last) items < distance wanted none items :=
          distance_page hlimit hsorted
            (by rw [behind_none]; exact hpage) (by rw [behind_none]; exact hmiss)
        rw [distance_none hwanted] at hclose
        omega
    · rw [distance_none hwanted]
      omega
  · rw [if_neg hempty] at hmiss ⊢
    split
    · next hmore =>
      cases hpage : ((behind after items).take limit).getLast? with
      | some last => exact distance_page hlimit hsorted hpage hmiss
      | none =>
        rw [List.getLast?_eq_none_iff, List.take_eq_nil_iff] at hpage
        exact absurd (hpage.resolve_left (by omega)) hempty
    · next hfinal =>
      have hpassed : ¬ Ahead wanted after items := by
        rintro ⟨entry, hentry, hentryWanted, hahead⟩
        refine hmiss entry ?_ hentryWanted
        rw [List.take_of_length_le (by omega)]
        exact mem_behind.mpr ⟨hentry, hahead⟩
      rw [distance_none hwanted, distance_of_passed hpassed]
      omega

end

end Distance

end Pallium.Paging
