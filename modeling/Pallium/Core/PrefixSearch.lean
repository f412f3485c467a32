import Mathlib

/-!
# Searching for the longest prefix that fits

Halving an interval of lengths, a length that fits raises the lower end and one that
does not lowers the upper end.  The length found has been tried, or is the lower end;
it is the greatest one when every length below a fitting one fits too.
-/

namespace Pallium

/-- The loop of a search for the last length between two bounds that fits. -/
def lastFitting (fits : ℕ → Bool) (low high : ℕ) : ℕ :=
  if low < high then
    let middle := (low + high + 1) / 2
    if fits middle then lastFitting fits middle high else lastFitting fits low (middle - 1)
  else low
termination_by high - low

variable {fits : ℕ → Bool}

theorem lastFitting_le {low high : ℕ} (hbounds : low ≤ high) :
    lastFitting fits low high ≤ high := by
  fun_induction lastFitting fits low high with
  | case1 low high hless middle hfits ih =>
    have hmiddle : middle = (low + high + 1) / 2 := rfl
    exact ih (by omega)
  | case2 low high hless middle hfits ih =>
    have hmiddle : middle = (low + high + 1) / 2 := rfl
    have hbelow := ih (by omega)
    omega
  | case3 low high hless => exact hbounds

end Pallium
