import Mathlib

/-!
# Similarity of texts

The ratio of `difflib.SequenceMatcher(None, first, second)`: twice the number of
characters in matching blocks over the number of all characters.  The longest run
of characters that both texts share is a block, and the texts on both sides of it
are matched in the same way.  Characters that are popular in a long second text
start no run and only extend one.
-/

namespace Pallium.SequenceMatcher

/-- Whether `autojunk` leaves the character out of the index of the second text. -/
def popular (second : List Char) (c : Char) : Bool :=
  200 ≤ second.length && second.length / 100 + 1 < second.count c

/-- A run of characters that both texts share. -/
structure Block where
  firstStart : ℕ
  secondStart : ℕ
  size : ℕ
  deriving DecidableEq, Repr

/-- The lengths of the runs that end at each place of the second text with the
character `c` of the first, from those that end with the character before it. -/
def nextRow (ignored : Char → Bool) (c : Char) (second : List Char) (row : List ℕ) : List ℕ :=
  List.zipWith (fun other length => if other == c && !ignored other then length + 1 else 0) second
    (0 :: row)

/-- The longest run so far after those that end at a place of the first text. -/
def scanRow (firstEnd : ℕ) : ℕ → List ℕ → Block → Block
  | _, [], best => best
  | secondEnd, length :: rest, best =>
    scanRow firstEnd (secondEnd + 1) rest
      (if best.size < length then
        ⟨firstEnd + 1 - length, secondEnd + 1 - length, length⟩
      else best)

def scan (ignored : Char → Bool) (second : List Char) : ℕ → List Char → List ℕ → Block → Block
  | _, [], _, best => best
  | firstEnd, c :: rest, row, best =>
    let row := nextRow ignored c second row
    scan ignored second (firstEnd + 1) rest row (scanRow firstEnd 0 row best)

def commonPrefix : List Char → List Char → ℕ
  | c :: first, d :: second => if c = d then commonPrefix first second + 1 else 0
  | _, _ => 0

def findLongestMatch (ignored : Char → Bool) (first second : List Char) : Block :=
  let best := scan ignored second 0 first (second.map fun _ => 0) ⟨0, 0, 0⟩
  let before := commonPrefix (first.take best.firstStart).reverse
    (second.take best.secondStart).reverse
  let behind := commonPrefix (first.drop (best.firstStart + best.size))
    (second.drop (best.secondStart + best.size))
  ⟨best.firstStart - before, best.secondStart - before, before + best.size + behind⟩

/-- The number of characters in matching blocks.  Every block shortens the first
text, so that its length is fuel enough. -/
def matchedLength (ignored : Char → Bool) : ℕ → List Char → List Char → ℕ
  | 0, _, _ => 0
  | fuel + 1, first, second =>
    let block := findLongestMatch ignored first second
    if block.size = 0 then 0
    else
      block.size +
        matchedLength ignored fuel (first.take block.firstStart)
          (second.take block.secondStart) +
        matchedLength ignored fuel (first.drop (block.firstStart + block.size))
          (second.drop (block.secondStart + block.size))

/-- Whether the ratio of two texts is at least `percent` hundredths. -/
def ratioAtLeast (percent : ℕ) (first second : String) : Bool :=
  let matched := matchedLength (popular second.toList) first.length first.toList second.toList
  first.length + second.length == 0 ||
    decide (percent * (first.length + second.length) ≤ 200 * matched)

/-- The blocks `a` and `cd` of two texts. -/
example : ratioAtLeast 60 "abxcd" "abcd" = true ∧ ratioAtLeast 90 "abxcd" "abcd" = false := by
  decide +kernel

end Pallium.SequenceMatcher
